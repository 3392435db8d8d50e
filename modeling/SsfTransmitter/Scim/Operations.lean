import SsfTransmitter.Scim.Authorization

/-!
# The access token of a sync

Callbacks and syncs share one Apple connection, and each makes its call under the token
lock inside its operation.  So no token is exchanged, refreshed or stored while a sync
is under way: the access token that it was given is the stored one to its end.  An
operation may fail anywhere else and be cancelled while it waits, yet its call is not
cancelled that has the token lock, and the database works.
-/

namespace SsfTransmitter.Scim

open SsfTransmitter.Core
open SsfTransmitter.Python

/-! ## Operations -/

/-- Who runs an operation. -/
inductive Caller where
  /-- `callback`, and whether `_consume_state` accepts its state. -/
  | callback (code : PyStr) (consumed : Bool)
  /-- `_background_sync` -/
  | background
  /-- `_run_scheduled_apple_scim_sync` -/
  | scheduled
  /-- `sync` -/
  | manual
  deriving DecidableEq

/-- The argument of its `scim_operation`. -/
def Caller.waits : Caller → Bool
  | .callback _ _ | .manual => false
  | .background | .scheduled => true

/-- What it calls under the token lock, unless it raises before. -/
def Caller.grant? : Caller → Option Grant
  | .callback code true => some (.authorizationCode code)
  | .callback _ false => none
  | .background | .scheduled | .manual => some .refreshToken

inductive OperationEnd where
  /-- `AppleScimBusy` -/
  | busy
  /-- Cancelled before it had the connection. -/
  | cancelled
  /-- Any exception in the operation. -/
  | raised
  /-- The callback has stored its tokens. -/
  | authorized (expiresIn : ℤ) (hasRefreshToken : Bool)
  /-- A sync returns: there is no access token, there are no users, or it is through. -/
  | unauthorized
  | unfetched
  | synced
  deriving DecidableEq

/-- How a body ends; `sync` raises where the other two return. -/
def OperationEnd.exit : Caller → OperationEnd → BodyExit
  | .manual, .unauthorized | .manual, .unfetched => .raised
  | _, .raised => .raised
  | _, _ => .returned

inductive OperationStage where
  | idle
  /-- It waits for the connection. -/
  | entering (caller : Caller)
  /-- In the operation, with its call under the token lock under way. -/
  | calling (caller : Caller)
  /-- In `get_users` or `sync_users`, with the access token. -/
  | syncing (caller : Caller) (accessToken : PyStr)
  | ended (result : OperationEnd)
  deriving DecidableEq

/-- The connection, the calls under the token lock and the operations. -/
structure OperationWorld where
  coordinator : Coordinator
  tokens : TokenWorld
  stages : ℕ → OperationStage

inductive OperationAction where
  | start (task : ℕ) (caller : Caller)
  | resume (task : ℕ)
  | cancel (task : ℕ)
  /-- A call under the token lock goes on. -/
  | tokens (action : TokenAction)
  /-- That call is over; an alert is sent by then. -/
  | called (task : ℕ)
  /-- `get_users` and `sync_users` are over. -/
  | synced (task : ℕ) (result : OperationEnd)

namespace OperationWorld

def place (task : ℕ) (stage : OperationStage) (world : OperationWorld) : OperationWorld :=
  { world with stages := Function.update world.stages task stage }

/-- The operation is left. -/
def leave (task : ℕ) (caller : Caller) (result : OperationEnd) (world : OperationWorld) :
    Option OperationWorld :=
  (world.coordinator.step (.leave task (result.exit caller))).map fun coordinator =>
    { world with coordinator := coordinator }.place task (.ended result)

section Steps

variable (runtime : TokenRuntime)

/-- The body up to its rest at the token lock. -/
def enter (task : ℕ) (caller : Caller) (world : OperationWorld) : Option OperationWorld :=
  match caller.grant? with
  | none => world.leave task caller .raised
  | some grant =>
    (world.tokens.step runtime (.call task grant)).map fun tokens =>
      { world with tokens := tokens }.place task (.calling caller)

/-- `scim_operation` up to its next rest. -/
def proceed (task : ℕ) (caller : Caller) (world : OperationWorld) : Option OperationWorld :=
  match world.coordinator.calls task with
  | .inside => world.enter runtime task caller
  | .refused => some (world.place task (.ended .busy))
  | .withdrawn => some (world.place task (.ended .cancelled))
  | _ => some (world.place task (.entering caller))

/-- The body after its call under the token lock. -/
def answered (task : ℕ) (caller : Caller) (stage : TokenStage) (world : OperationWorld) :
    Option OperationWorld :=
  match caller, stage with
  | .callback _ _, .finished (.authorized expiresIn hasRefreshToken) =>
    world.leave task caller (.authorized expiresIn hasRefreshToken)
  | .callback _ _, .finished _ => world.leave task caller .raised
  | _, .finished (.token (some accessToken)) =>
    if accessToken.isEmpty then world.leave task caller .unauthorized
    else some (world.place task (.syncing caller accessToken))
  | _, .finished (.token none) => world.leave task caller .unauthorized
  | _, .finished _ | _, .withdrawn => world.leave task caller .raised
  | _, _ => none

def step (world : OperationWorld) : OperationAction → Option OperationWorld
  | .start task caller =>
    match world.stages task with
    | .idle => (world.coordinator.step (.enter task caller.waits)).bind fun coordinator =>
        { world with coordinator := coordinator }.proceed runtime task caller
    | _ => none
  | .resume task =>
    match world.stages task with
    | .entering caller => (world.coordinator.step (.resume task)).bind fun coordinator =>
        { world with coordinator := coordinator }.proceed runtime task caller
    | _ => none
  | .cancel task =>
    match world.stages task with
    | .entering _ => (world.coordinator.step (.cancel task)).map fun coordinator =>
        { world with coordinator := coordinator }
    | _ => none
  | .tokens action =>
    match action with
    -- a call is made by an operation
    | .call _ _ => none
    | action => (world.tokens.step runtime action).map fun tokens =>
        { world with tokens := tokens }
  | .called task =>
    match world.stages task with
    | .calling caller => world.answered task caller (world.tokens.stages task)
    | _ => none
  | .synced task result =>
    match world.stages task, result with
    | .syncing caller _, .synced | .syncing caller _, .unfetched
    | .syncing caller _, .raised => world.leave task caller result
    | _, _ => none

/-- Any number of operations, from any stored tokens. -/
def operations : TransitionSystem OperationWorld OperationAction where
  initial world := ∃ tokens, (tokenRotation runtime).initial tokens ∧
    world = ⟨.init, tokens, fun _ => .idle⟩
  step := step runtime

end Steps

end OperationWorld

/-! ## A step under the token lock -/

/-- The call is not under way. -/
def TokenStage.over : TokenStage → Bool
  | .idle | .finished _ | .withdrawn => true
  | _ => false

/-- The call that an action is about. -/
def TokenAction.task : TokenAction → ℕ
  | .call task _ | .handOver task | .withdraw task | .load task | .check task _ | .send task
  | .answer task _ | .save task _ | .release task => task

namespace TokenWorld

variable {runtime : TokenRuntime} {world next : TokenWorld} {action : TokenAction}

/-- An access token that a call returns is the stored one. -/
def Obtained (world : TokenWorld) : TokenStage → Prop
  | .closing (.token (some accessToken)) | .finished (.token (some accessToken)) =>
    ∃ row, world.row = some row ∧ row.accessToken = accessToken
  | _ => True

theorem obtained_closing {exit : TokenExit}
    (hstored : ∀ accessToken, exit = .token (some accessToken) →
      ∃ row, world.row = some row ∧ row.accessToken = accessToken) :
    world.Obtained (.closing exit) := by
  cases exit with
  | token accessToken =>
      cases accessToken with
      | none => trivial
      | some accessToken => exact hstored accessToken rfl
  | authorized expiresIn hasRefreshToken => trivial
  | raised => trivial

theorem obtained_finished {exit : TokenExit} (hobtained : world.Obtained (.closing exit)) :
    world.Obtained (.finished exit) := by
  cases exit with
  | token accessToken =>
      cases accessToken with
      | none => trivial
      | some accessToken => exact hobtained
  | authorized expiresIn hasRefreshToken => trivial
  | raised => trivial

/-- What an action of a call leaves of it; it was under way. -/
structure Advances (world next : TokenWorld) (task : ℕ) (stage : TokenStage) : Prop where
  stages : next.stages = Function.update world.stages task stage
  underWay : (world.stages task).over = false
  obtained : world.Obtained (world.stages task) → next.Obtained stage

theorem checkTokens_eq_error {row : Option TokenRow} {now : ℤ} {accessToken : PyStr}
    (hcheck : checkTokens row now = .error (.token (some accessToken))) :
    ∃ stored, row = some stored ∧ stored.accessToken = accessToken := by
  cases row with
  | none => cases hcheck
  | some stored =>
      rw [checkTokens] at hcheck
      split_ifs at hcheck
      · obtain rfl := Option.some.inj (TokenExit.token.inj (Except.error.inj hcheck))
        exact ⟨stored, rfl, rfl⟩
      · split at hcheck <;> cases hcheck

/-- A call that stores nothing returns no access token. -/
theorem answered_ne_token {request : TokenRequest} {outcome : Outcome} {accessToken : PyStr} :
    answered runtime request outcome ≠ .error (.token (some accessToken)) := by
  intro hanswered
  cases request with
  | refreshToken refreshToken =>
      simp only [answered, refreshAnswered] at hanswered
      repeat' split at hanswered
      all_goals cases hanswered
  | authorizationCode code =>
      simp only [answered, exchangeAnswered] at hanswered
      repeat' split at hanswered
      all_goals cases hanswered

theorem columnText_str {text : PyStr} {kept : Option PyStr}
    (hkept : columnText runtime (.str text) = some kept) : kept = some text := by
  rw [columnText] at hkept
  split_ifs at hkept
  exact (Option.some.inj hkept).symm

/-- What is returned after a save is what was saved. -/
theorem accessToken_of_saved {request : TokenRequest} {received : ReceivedTokens} {now : ℤ}
    {before : Option TokenRow} {row : TokenRow} {accessToken : PyStr}
    (hsaved : saveTokens runtime before received now = some row)
    (hexit : exitSaved request received = .token (some accessToken)) :
    row.accessToken = accessToken := by
  have htext := (stores_saveTokens hsaved).accessToken
  rw [exitSaved.eq_def] at hexit
  split at hexit
  · next text hreceived =>
    obtain rfl := Option.some.inj (TokenExit.token.inj hexit)
    rw [hreceived] at htext
    exact Option.some.inj (columnText_str htext)
  · cases hexit
  · cases hexit

theorem advances_of_step (hworld : world.AllSound)
    (haction : ∀ task grant, action ≠ .call task grant)
    (hstep : world.step runtime action = some next) :
    ∃ stage, Advances world next action.task stage := by
  cases action with
  | call task grant => exact absurd rfl (haction task grant)
  | handOver task =>
      simp only [step] at hstep
      split at hstep
      · next grant hstage =>
        obtain ⟨lock, -, rfl⟩ := Option.map_eq_some_iff.mp hstep
        exact ⟨_, rfl, by rw [TokenAction.task, hstage]; rfl, fun _ => trivial⟩
      · cases hstep
  | withdraw task | load task | send task =>
      simp only [step] at hstep
      split at hstep
      · next hstage =>
        obtain rfl := Option.some.inj hstep
        exact ⟨_, rfl, by rw [TokenAction.task, hstage]; rfl, fun _ => trivial⟩
      · cases hstep
  | check task now =>
      simp only [step] at hstep
      split at hstep
      · next row version hstage =>
        obtain rfl := Option.some.inj hstep
        have hover : (world.stages task).over = false := by rw [hstage]; rfl
        have hsound := hworld task
        rw [hstage] at hsound
        rw [checkLoaded]
        split
        · next exit hcheck =>
          refine ⟨_, rfl, hover, fun _ => obtained_closing fun accessToken hexit => ?_⟩
          rw [hexit] at hcheck
          have hstored := checkTokens_eq_error hcheck
          rw [hsound.2.1] at hstored
          exact hstored
        · exact ⟨_, rfl, hover, fun _ => trivial⟩
      · cases hstep
  | answer task outcome =>
      simp only [step] at hstep
      split at hstep
      · next request version hstage =>
        obtain rfl := Option.some.inj hstep
        have hover : (world.stages task).over = false := by rw [hstage]; rfl
        rw [receive]
        split
        · next exit hanswered =>
          refine ⟨_, rfl, hover, fun _ => obtained_closing fun accessToken hexit => ?_⟩
          rw [hexit] at hanswered
          exact absurd hanswered answered_ne_token
        · exact ⟨_, rfl, hover, fun _ => trivial⟩
      · cases hstep
  | save task now =>
      simp only [step] at hstep
      split at hstep
      · next request version number received hstage =>
        obtain rfl := Option.some.inj hstep
        have hover : (world.stages task).over = false := by rw [hstage]; rfl
        rw [saveReceived]
        split
        · exact ⟨_, rfl, hover, fun _ => trivial⟩
        · next row hsaved =>
          refine ⟨_, rfl, hover, fun _ => obtained_closing fun accessToken hexit => ?_⟩
          exact ⟨row, rfl, accessToken_of_saved hsaved hexit⟩
      · cases hstep
  | release task =>
      simp only [step] at hstep
      split at hstep
      · next exit hstage =>
        obtain rfl := Option.some.inj hstep
        refine ⟨_, rfl, by rw [TokenAction.task, hstage]; rfl, fun hobtained => ?_⟩
        rw [TokenAction.task, hstage] at hobtained
        exact obtained_finished hobtained
      · cases hstep

end TokenWorld

/-! ## A step of the connection -/

namespace Coordinator

variable {coordinator following : Coordinator} {action : CoordinatorAction} {call other : ℕ}

/-- Leaving an operation wakes the waiters; else a step moves nothing but its call. -/
theorem calls_of_step (hstep : coordinator.step action = some following)
    (hother : other ≠ action.call) :
    following.calls other = coordinator.calls other ∨
      following.calls other = (coordinator.calls other).wake := by
  have hproceed : ∀ call wait, other ≠ call →
      (coordinator.proceed call wait).calls other = coordinator.calls other := by
    intro call wait hne
    rw [proceed]
    split_ifs <;> simp [hne]
  cases action with
  | enter call wait =>
      simp only [step] at hstep
      split_ifs at hstep
      obtain rfl := Option.some.inj hstep
      exact Or.inl (hproceed call wait hother)
  | resume call =>
      simp only [step] at hstep
      split at hstep
      · obtain rfl := Option.some.inj hstep
        exact Or.inl ((calls_place _ other).trans (if_neg hother))
      · obtain rfl := Option.some.inj hstep
        exact Or.inl (hproceed call true hother)
      · cases hstep
  | cancel call =>
      simp only [step] at hstep
      split at hstep
      · obtain rfl := Option.some.inj hstep
        exact Or.inl ((calls_place _ other).trans (if_neg hother))
      · obtain rfl := Option.some.inj hstep
        exact Or.inl rfl
      · cases hstep
  | leave call exit =>
      simp only [step] at hstep
      split at hstep
      · obtain rfl := Option.some.inj hstep
        have hkept : (coordinator.place call (.left exit)).calls other =
            coordinator.calls other := (calls_place _ other).trans (if_neg hother)
        rw [finish, setIdle]
        split_ifs
        · exact Or.inl hkept
        · exact Or.inr (congrArg Entry.wake hkept)
      · cases hstep

/-- Where a call rests that asks for the connection, or is woken for it. -/
inductive Asked : Entry → Prop where
  | inside : Asked .inside
  | refused : Asked .refused
  | withdrawn : Asked .withdrawn
  | waiting (woken cancelled : Bool) : Asked (.waiting woken cancelled)

theorem asked_proceed (wait : Bool)
    (hcoherent : (coordinator.proceed call wait).Coherent) :
    Asked ((coordinator.proceed call wait).calls call) := by
  have hsuspends := hcoherent.suspends call
  rw [proceed] at hsuspends ⊢
  split_ifs at hsuspends ⊢
  · simpa using Asked.refused
  · exact absurd (by simp) hsuspends
  · simpa using Asked.waiting false false
  · simpa using Asked.inside

theorem asked_of_enter (hcoherent : coordinator.Coherent) {wait : Bool}
    (hstep : coordinator.step (.enter call wait) = some following) :
    Asked (following.calls call) := by
  have hafter := hcoherent.next hstep
  simp only [step] at hstep
  split_ifs at hstep
  obtain rfl := Option.some.inj hstep
  exact asked_proceed wait hafter

theorem asked_of_resume (hcoherent : coordinator.Coherent)
    (hstep : coordinator.step (.resume call) = some following) :
    Asked (following.calls call) := by
  have hafter := hcoherent.next hstep
  simp only [step] at hstep
  split at hstep
  · obtain rfl := Option.some.inj hstep
    simpa using Asked.withdrawn
  · obtain rfl := Option.some.inj hstep
    exact asked_proceed true hafter
  · cases hstep

theorem calls_of_leave {exit : BodyExit}
    (hstep : coordinator.step (.leave call exit) = some following) :
    following.calls call = .left exit := by
  simp only [step] at hstep
  split at hstep
  · obtain rfl := Option.some.inj hstep
    rw [finish, setIdle]
    split_ifs
    · simp
    · simp [Entry.wake]
  · cases hstep

end Coordinator

/-! ## Where an operation rests -/

/-- The connection is where the operation rests. -/
def OperationStage.Fits : OperationStage → Entry → Prop
  | .idle, entry => entry = .outside
  | .entering _, entry => ∃ woken cancelled, entry = .waiting woken cancelled
  | .calling _, entry | .syncing _ _, entry => entry = .inside
  | .ended _, entry => entry ≠ .inside

/-- So is its call under the token lock. -/
def OperationStage.Holds (tokens : TokenWorld) : OperationStage → TokenStage → Prop
  | .idle, stage | .entering _, stage => stage = .idle
  | .calling _, stage => tokens.Obtained stage
  | .syncing _ accessToken, stage =>
    stage = .finished (.token (some accessToken)) ∧ tokens.Obtained stage
  | .ended _, stage => stage.over = true

theorem OperationStage.Fits.wake {stage : OperationStage} {entry : Entry}
    (hfits : stage.Fits entry) : stage.Fits entry.wake := by
  cases stage with
  | idle =>
      obtain rfl : entry = .outside := hfits
      rfl
  | entering caller =>
      obtain ⟨woken, cancelled, rfl⟩ := hfits
      exact ⟨true, cancelled, rfl⟩
  | calling caller | syncing caller accessToken => exact Coordinator.wake_eq_inside.mpr hfits
  | ended result => exact fun hinside => hfits (Coordinator.wake_eq_inside.mp hinside)

/-- Outside the operation it does not matter what is stored. -/
theorem OperationStage.Holds.congr {stage : OperationStage} {tokens next : TokenWorld}
    {call : TokenStage} {entry : Entry} (hholds : stage.Holds tokens call)
    (hfits : stage.Fits entry) (houtside : entry ≠ .inside) : stage.Holds next call := by
  cases stage with
  | idle | entering _ | ended _ => exact hholds
  | calling _ | syncing _ _ => exact absurd hfits houtside

namespace OperationWorld

/-- Connection, calls and operations agree, but for one operation that is on the move. -/
structure Aligned (runtime : TokenRuntime) (start : Option TokenRow) (moving : Option ℕ)
    (world : OperationWorld) : Prop where
  coherent : world.coordinator.Coherent
  recorded : Recorded runtime start world.tokens
  fits : ∀ task, moving ≠ some task →
    (world.stages task).Fits (world.coordinator.calls task)
  holds : ∀ task, moving ≠ some task →
    (world.stages task).Holds world.tokens (world.tokens.stages task)

variable {runtime : TokenRuntime} {start : Option TokenRow} {world next : OperationWorld}
  {task : ℕ}

theorem Aligned.fits_all (hworld : world.Aligned runtime start none) (task : ℕ) :
    (world.stages task).Fits (world.coordinator.calls task) :=
  hworld.fits task (Option.some_ne_none task).symm

theorem Aligned.holds_all (hworld : world.Aligned runtime start none) (task : ℕ) :
    (world.stages task).Holds world.tokens (world.tokens.stages task) :=
  hworld.holds task (Option.some_ne_none task).symm

theorem Aligned.move (hworld : world.Aligned runtime start none) (task : ℕ) :
    world.Aligned runtime start (some task) where
  coherent := hworld.coherent
  recorded := hworld.recorded
  fits other _ := hworld.fits_all other
  holds other _ := hworld.holds_all other

theorem Aligned.rest (hworld : world.Aligned runtime start (some task))
    (hfits : (world.stages task).Fits (world.coordinator.calls task))
    (hholds : (world.stages task).Holds world.tokens (world.tokens.stages task)) :
    world.Aligned runtime start none where
  coherent := hworld.coherent
  recorded := hworld.recorded
  fits other _ := by
    by_cases hsame : other = task
    · exact hsame ▸ hfits
    · exact hworld.fits other fun heq => hsame (Option.some.inj heq).symm
  holds other _ := by
    by_cases hsame : other = task
    · exact hsame ▸ hholds
    · exact hworld.holds other fun heq => hsame (Option.some.inj heq).symm

/-- The operation comes to another rest. -/
theorem Aligned.place (hworld : world.Aligned runtime start (some task))
    {stage : OperationStage} (hfits : stage.Fits (world.coordinator.calls task))
    (hholds : stage.Holds world.tokens (world.tokens.stages task)) :
    (world.place task stage).Aligned runtime start none := by
  have hstage : (world.place task stage).stages task = stage := Function.update_self ..
  have hkept : ∀ other, some task ≠ some other →
      (world.place task stage).stages other = world.stages other :=
    fun other hother => Function.update_of_ne (fun heq => hother (by rw [heq])) ..
  have hmoved : (world.place task stage).Aligned runtime start (some task) := by
    refine ⟨hworld.coherent, hworld.recorded, fun other hother => ?_, fun other hother => ?_⟩
    · rw [hkept other hother]
      exact hworld.fits other hother
    · rw [hkept other hother]
      exact hworld.holds other hother
  apply hmoved.rest
  · rw [hstage]
    exact hfits
  · rw [hstage]
    exact hholds

/-- The operation does something with the connection. -/
theorem Aligned.connect (hworld : world.Aligned runtime start (some task))
    {action : CoordinatorAction} {following : Coordinator} (haction : action.call = task)
    (hstep : world.coordinator.step action = some following) :
    { world with coordinator := following }.Aligned runtime start (some task) where
  coherent := hworld.coherent.next hstep
  recorded := hworld.recorded
  fits other hother := by
    have hne : other ≠ action.call := fun heq => hother (by rw [heq, haction])
    have hfits := hworld.fits other hother
    rcases Coordinator.calls_of_step hstep hne with hsame | hwoken
    · exact hsame ▸ hfits
    · exact hwoken ▸ hfits.wake
  holds := hworld.holds

/-- In its operation, it does something under the token lock. -/
theorem Aligned.request (hworld : world.Aligned runtime start (some task))
    {action : TokenAction} {tokens : TokenWorld} {stage : TokenStage}
    (hinside : world.coordinator.calls task = .inside)
    (hstep : world.tokens.step runtime action = some tokens)
    (hstages : tokens.stages = Function.update world.tokens.stages task stage) :
    { world with tokens := tokens }.Aligned runtime start (some task) where
  coherent := hworld.coherent
  recorded := hworld.recorded.step hstep
  fits := hworld.fits
  holds other hother := by
    have hne : other ≠ task := fun heq => hother (by rw [heq])
    have houtside : world.coordinator.calls other ≠ .inside :=
      fun heq => hne (hworld.coherent.single _ _ heq hinside)
    have hkept : tokens.stages other = world.tokens.stages other := by
      rw [hstages, Function.update_of_ne hne]
    exact hkept ▸ (hworld.holds other hother).congr (hworld.fits other hother) houtside

/-- The operation is left once its call is over. -/
theorem Aligned.leave (hworld : world.Aligned runtime start (some task))
    (hover : (world.tokens.stages task).over = true) {caller : Caller} {result : OperationEnd}
    (hleave : world.leave task caller result = some next) :
    next.Aligned runtime start none := by
  obtain ⟨following, hstep, rfl⟩ := Option.map_eq_some_iff.mp hleave
  apply (hworld.connect rfl hstep).place
  · have hleft := Coordinator.calls_of_leave hstep
    intro hinside
    cases hleft.symm.trans hinside
  · exact hover

theorem Aligned.enter (hworld : world.Aligned runtime start (some task)) {caller : Caller}
    (hinside : world.coordinator.calls task = .inside)
    (hidle : world.tokens.stages task = .idle)
    (henter : world.enter runtime task caller = some next) :
    next.Aligned runtime start none := by
  rw [OperationWorld.enter] at henter
  split at henter
  · exact hworld.leave (by rw [hidle]; rfl) henter
  · next grant hgrant =>
    obtain ⟨tokens, hstep, rfl⟩ := Option.map_eq_some_iff.mp henter
    have hcalled : ∃ stage : TokenStage, tokens.Obtained stage ∧
        tokens.stages = Function.update world.tokens.stages task stage := by
      simp only [TokenWorld.step, hidle] at hstep
      obtain rfl := Option.some.inj hstep
      refine ⟨_, ?_, rfl⟩
      split_ifs <;> trivial
    obtain ⟨stage, hobtained, hstages⟩ := hcalled
    apply (hworld.request hinside hstep hstages).place
    · exact hinside
    · have hstage : tokens.stages task = stage := by rw [hstages, Function.update_self]
      exact hstage ▸ hobtained

theorem Aligned.proceed (hworld : world.Aligned runtime start (some task)) {caller : Caller}
    (hasked : Coordinator.Asked (world.coordinator.calls task))
    (hidle : world.tokens.stages task = .idle)
    (hproceed : world.proceed runtime task caller = some next) :
    next.Aligned runtime start none := by
  rw [OperationWorld.proceed] at hproceed
  generalize hentry : world.coordinator.calls task = entry at hasked hproceed
  cases hasked with
  | inside => exact hworld.enter hentry hidle hproceed
  | refused | withdrawn =>
      obtain rfl := Option.some.inj hproceed
      apply hworld.place
      · intro hinside
        cases hentry.symm.trans hinside
      · rw [hidle]
        rfl
  | waiting woken cancelled =>
      obtain rfl := Option.some.inj hproceed
      exact hworld.place ⟨woken, cancelled, hentry⟩ hidle

theorem Aligned.answered (hworld : world.Aligned runtime start none) {caller : Caller}
    (hstage : world.stages task = .calling caller)
    (hanswered : world.answered task caller (world.tokens.stages task) = some next) :
    next.Aligned runtime start none := by
  have hinside := hworld.fits_all task
  have hobtained := hworld.holds_all task
  rw [hstage] at hinside hobtained
  rw [OperationWorld.answered.eq_def] at hanswered
  split at hanswered
  case h_3 accessToken _ hcall =>
    split_ifs at hanswered
    · exact (hworld.move task).leave (by rw [hcall]; rfl) hanswered
    · obtain rfl := Option.some.inj hanswered
      exact (hworld.move task).place hinside ⟨hcall, hobtained⟩
  case h_7 => cases hanswered
  all_goals exact (hworld.move task).leave (by simp_all [TokenStage.over]) hanswered

/-- A call that is under way is that of an operation. -/
theorem Aligned.calling (hworld : world.Aligned runtime start none)
    (hcall : (world.tokens.stages task).over = false) :
    ∃ caller, world.stages task = .calling caller := by
  have hholds := hworld.holds_all task
  cases hstage : world.stages task with
  | calling caller => exact ⟨caller, rfl⟩
  | idle | entering caller =>
      rw [hstage] at hholds
      rw [OperationStage.Holds.eq_def] at hholds
      rw [hholds] at hcall
      cases hcall
  | syncing caller accessToken =>
      rw [hstage] at hholds
      rw [hholds.1] at hcall
      cases hcall
  | ended result =>
      rw [hstage] at hholds
      cases hcall.symm.trans hholds

theorem Aligned.step (hworld : world.Aligned runtime start none) {action : OperationAction}
    (hstep : world.step runtime action = some next) : next.Aligned runtime start none := by
  cases action with
  | start task caller =>
      simp only [OperationWorld.step] at hstep
      split at hstep
      · next hidle =>
        obtain ⟨following, henter, hproceed⟩ := Option.bind_eq_some_iff.mp hstep
        have hcall := hworld.holds_all task
        rw [hidle] at hcall
        exact ((hworld.move task).connect rfl henter).proceed
          (Coordinator.asked_of_enter hworld.coherent henter) hcall hproceed
      · cases hstep
  | resume task =>
      simp only [OperationWorld.step] at hstep
      split at hstep
      · next caller hentering =>
        obtain ⟨following, hresume, hproceed⟩ := Option.bind_eq_some_iff.mp hstep
        have hcall := hworld.holds_all task
        rw [hentering] at hcall
        exact ((hworld.move task).connect rfl hresume).proceed
          (Coordinator.asked_of_resume hworld.coherent hresume) hcall hproceed
      · cases hstep
  | cancel task =>
      simp only [OperationWorld.step] at hstep
      split at hstep
      · next caller hentering =>
        obtain ⟨following, hcancel, rfl⟩ := Option.map_eq_some_iff.mp hstep
        have hwaiting := hworld.fits_all task
        rw [hentering] at hwaiting
        obtain ⟨woken, cancelled, hwaiting⟩ := hwaiting
        have hcalls : following.calls task = .waiting woken true := by
          simp only [Coordinator.step, hwaiting] at hcancel
          obtain rfl := Option.some.inj hcancel
          simp
        apply ((hworld.move task).connect rfl hcancel).rest
        · exact hentering ▸ ⟨woken, true, hcalls⟩
        · exact hworld.holds_all task
      · cases hstep
  | tokens action =>
      simp only [OperationWorld.step] at hstep
      split at hstep
      · cases hstep
      · next haction =>
        obtain ⟨tokens, hmove, rfl⟩ := Option.map_eq_some_iff.mp hstep
        obtain ⟨stage, hadvances⟩ :=
          TokenWorld.advances_of_step hworld.recorded.sound haction hmove
        obtain ⟨caller, hcalling⟩ := hworld.calling hadvances.underWay
        have hinside := hworld.fits_all action.task
        have hobtained := hworld.holds_all action.task
        rw [hcalling] at hinside hobtained
        have hstage : tokens.stages action.task = stage := by
          rw [hadvances.stages, Function.update_self]
        apply ((hworld.move action.task).request hinside hmove hadvances.stages).rest
        · exact hcalling ▸ hinside
        · rw [hcalling, hstage]
          exact hadvances.obtained hobtained
  | called task =>
      simp only [OperationWorld.step] at hstep
      split at hstep
      · next caller hstage => exact hworld.answered hstage hstep
      · cases hstep
  | synced task result =>
      have hleft : ∀ {caller : Caller} {accessToken : PyStr},
          world.stages task = .syncing caller accessToken →
          world.leave task caller result = some next → next.Aligned runtime start none := by
        intro caller accessToken hsyncing hleave
        have hcall := hworld.holds_all task
        rw [hsyncing] at hcall
        exact (hworld.move task).leave (by rw [hcall.1]; rfl) hleave
      simp only [OperationWorld.step] at hstep
      split at hstep
      · next hsyncing => exact hleft hsyncing hstep
      · next hsyncing => exact hleft hsyncing hstep
      · next hsyncing => exact hleft hsyncing hstep
      · cases hstep

theorem aligned_of_path {first : OperationWorld} (hfirst : (operations runtime).initial first)
    (hpath : (operations runtime).Path (fun _ => True) first world) :
    ∃ start, world.Aligned runtime start none := by
  obtain ⟨tokens, ⟨row, rfl⟩, rfl⟩ := hfirst
  refine ⟨row, hpath.preserves (fun source action target hsource _ hstep =>
    hsource.step hstep) ?_⟩
  constructor
  case coherent => exact Coordinator.coherent_of_reachable (.of_initial rfl)
  case recorded => exact recorded_of_path ⟨row, rfl⟩ .refl
  case fits => exact fun _ _ => rfl
  case holds => exact fun _ _ => rfl

/-! ## While a sync is under way -/

/-- An operation that does not get the connection leaves the tokens alone. -/
theorem proceed_eq_place {caller : Caller}
    (houtside : world.coordinator.calls task ≠ .inside)
    (hproceed : world.proceed runtime task caller = some next) :
    ∃ stage, next = world.place task stage := by
  rw [OperationWorld.proceed] at hproceed
  split at hproceed
  · next hinside => exact absurd hinside houtside
  all_goals exact ⟨_, (Option.some.inj hproceed).symm⟩

/-- No operation but the sync is in its body. -/
theorem Aligned.eq_of_inside (hworld : world.Aligned runtime start none) {caller : Caller}
    {accessToken : PyStr} (hsyncing : world.stages task = .syncing caller accessToken)
    {other : ℕ} (hother : world.coordinator.calls other = .inside) : other = task := by
  have hinside := hworld.fits_all task
  rw [hsyncing] at hinside
  exact hworld.coherent.single _ _ hother hinside

theorem Aligned.not_calling (hworld : world.Aligned runtime start none) {caller : Caller}
    {accessToken : PyStr} (hsyncing : world.stages task = .syncing caller accessToken)
    {other : ℕ} {calling : Caller} : world.stages other ≠ .calling calling := by
  intro hcalling
  have hbody := hworld.fits_all other
  rw [hcalling] at hbody
  rw [hworld.eq_of_inside hsyncing hbody, hsyncing] at hcalling
  cases hcalling

/-- No step of a run in which a sync is under way touches the stored tokens, or asks the
token endpoint for others. -/
theorem Aligned.tokens_eq (hworld : world.Aligned runtime start none) {caller : Caller}
    {accessToken : PyStr} (hsyncing : world.stages task = .syncing caller accessToken)
    {action : OperationAction} (hstep : world.step runtime action = some next) :
    next.tokens = world.tokens := by
  -- another operation that asks for the connection does not get it
  have hrefused : ∀ {other : ℕ} {asking : CoordinatorAction} {following : Coordinator}
      {caller : Caller}, other ≠ task → asking.call = other →
      world.coordinator.step asking = some following →
      { world with coordinator := following }.proceed runtime other caller = some next →
      next.tokens = world.tokens := by
    intro other asking following caller hne hasking hmove hproceed
    have hmoved := (hworld.move other).connect hasking hmove
    have hstill := hmoved.fits task fun heq => hne (Option.some.inj heq)
    rw [hsyncing] at hstill
    obtain ⟨stage, rfl⟩ := proceed_eq_place
      (fun heq => hne (hmoved.coherent.single _ _ heq hstill)) hproceed
    rfl
  cases action with
  | start other caller =>
      simp only [OperationWorld.step] at hstep
      split at hstep
      · next hidle =>
        obtain ⟨following, henter, hproceed⟩ := Option.bind_eq_some_iff.mp hstep
        apply hrefused _ rfl henter hproceed
        rintro rfl
        cases hidle.symm.trans hsyncing
      · cases hstep
  | resume other =>
      simp only [OperationWorld.step] at hstep
      split at hstep
      · next hentering =>
        obtain ⟨following, hresume, hproceed⟩ := Option.bind_eq_some_iff.mp hstep
        apply hrefused _ rfl hresume hproceed
        rintro rfl
        cases hentering.symm.trans hsyncing
      · cases hstep
  | cancel other =>
      simp only [OperationWorld.step] at hstep
      split at hstep
      · obtain ⟨following, -, rfl⟩ := Option.map_eq_some_iff.mp hstep
        rfl
      · cases hstep
  | tokens action =>
      simp only [OperationWorld.step] at hstep
      split at hstep
      · cases hstep
      · next haction =>
        obtain ⟨tokens, hmove, rfl⟩ := Option.map_eq_some_iff.mp hstep
        obtain ⟨stage, hadvances⟩ :=
          TokenWorld.advances_of_step hworld.recorded.sound haction hmove
        obtain ⟨caller, hcalling⟩ := hworld.calling hadvances.underWay
        exact absurd hcalling (hworld.not_calling hsyncing)
  | called other =>
      simp only [OperationWorld.step] at hstep
      split at hstep
      · next hcalling => exact absurd hcalling (hworld.not_calling hsyncing)
      · cases hstep
  | synced other result =>
      simp only [OperationWorld.step] at hstep
      split at hstep
      all_goals first
        | cases hstep
        | obtain ⟨following, -, rfl⟩ := Option.map_eq_some_iff.mp hstep
          rfl

end OperationWorld

/-- The row is that of the last save. -/
theorem Successive.row_eq {runtime : TokenRuntime} {before row : Option TokenRow}
    {saves : List Saved} {saved : Saved} (hsaves : Successive runtime before saves row)
    (hlast : saves.getLast? = some saved) : row = some saved.row := by
  induction saves generalizing before with
  | nil => cases hlast
  | cons first saves ih =>
      cases saves with
      | nil =>
          obtain rfl := Option.some.inj hlast
          exact hsaves.2
      | cons second saves => exact ih hsaves.2 hlast

namespace OperationWorld

variable {runtime : TokenRuntime} {first world : OperationWorld}

/-- The access token with which a sync calls Apple is the stored one, that of the last
response that was saved, from its start to its end: meanwhile no call is under way under
the token lock, no other operation is in its body, and no step of any operation touches the
stored tokens or asks the token endpoint for others. -/
theorem syncing_token_stored (hfirst : (operations runtime).initial first)
    (hpath : (operations runtime).Path (fun _ => True) first world) {task : ℕ}
    {caller : Caller} {accessToken : PyStr}
    (hsyncing : world.stages task = .syncing caller accessToken) :
    (∃ row, world.tokens.row = some row ∧ row.accessToken = accessToken) ∧
    (∀ saved, world.tokens.saves.getLast? = some saved →
      saved.row.accessToken = accessToken) ∧
    (∀ call, (world.tokens.stages call).over = true) ∧
    (∀ other, world.coordinator.calls other = .inside → other = task) ∧
    ∀ later, (operations runtime).PathWhere
        (fun state _ => state.stages task = .syncing caller accessToken) world later →
      later.tokens = world.tokens := by
  obtain ⟨start, hworld⟩ := aligned_of_path hfirst hpath
  have hcall := hworld.holds_all task
  rw [hsyncing] at hcall
  obtain ⟨hfinished, hobtained⟩ := hcall
  rw [hfinished] at hobtained
  obtain ⟨row, hrow, haccess⟩ := hobtained
  refine ⟨⟨row, hrow, haccess⟩, fun saved hlast => ?_, fun call => ?_,
    fun other => hworld.eq_of_inside hsyncing, fun later hlater => ?_⟩
  · have hlatest := hworld.recorded.successive.row_eq hlast
    obtain rfl := Option.some.inj (hrow.symm.trans hlatest)
    exact haccess
  · by_contra hunder
    obtain ⟨other, hcalling⟩ := hworld.calling (Bool.eq_false_of_not_eq_true hunder)
    exact hworld.not_calling hsyncing hcalling
  · have hkept : later.Aligned runtime start none ∧ later.tokens = world.tokens := by
      apply @TransitionSystem.PathWhere.preserves _ _ _ _ (fun state : OperationWorld =>
        state.Aligned runtime start none ∧ state.tokens = world.tokens) _ _ hlater
      · intro source action target hsource hunder hstep
        exact ⟨hsource.1.step hstep, (hsource.1.tokens_eq hunder hstep).trans hsource.2⟩
      · exact ⟨hworld, rfl⟩
    exact hkept.2

/-- A manual sync refreshes the tokens, while a scheduled one waits. -/
def sampleSync : List OperationAction :=
  [.start 1 .manual, .start 2 .scheduled, .tokens (.load 1), .tokens (.check 1 100),
    .tokens (.answer 1 (tokenResponse "refreshed" "new-grant")), .tokens (.save 1 100),
    .tokens (.release 1), .called 1, .start 3 (.callback "code" true)]

def sampleOperationWorld : OperationWorld :=
  ⟨.init, ⟨.free, some expiredRow, fun _ => .idle, 0, []⟩, fun _ => .idle⟩

theorem syncing_token_stored_sample :
    ∃ world, (operations sampleRuntime).run sampleOperationWorld sampleSync = some world ∧
      world.stages 1 = .syncing .manual "refreshed" ∧ world.stages 2 = .entering .scheduled ∧
      world.stages 3 = .ended .busy ∧
      ∃ row, world.tokens.row = some row ∧ row.accessToken = "refreshed" := by
  have hsample : ((operations sampleRuntime).run sampleOperationWorld sampleSync).map
      (fun world => (world.stages 1, world.stages 2, world.stages 3)) =
      some (.syncing .manual "refreshed", .entering .scheduled, .ended .busy) := by
    decide +kernel
  obtain ⟨world, hrun, hstages⟩ := Option.map_eq_some_iff.mp hsample
  obtain ⟨hsyncing, hothers⟩ := Prod.mk.inj hstages
  obtain ⟨hwaiting, hrefused⟩ := Prod.mk.inj hothers
  have hpath := TransitionSystem.path_of_run (fun _ _ => trivial) hrun
  exact ⟨world, hrun, hsyncing, hwaiting, hrefused,
    (syncing_token_stored ⟨_, ⟨_, rfl⟩, rfl⟩ hpath hsyncing).1⟩

end OperationWorld

end SsfTransmitter.Scim
