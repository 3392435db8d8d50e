import SsfTransmitter.Core.FairLock
import SsfTransmitter.Core.TransitionSystem
import SsfTransmitter.Scim.Listing

/-!
# Token rotation

`get_valid_access_token` and the exchange of an authorization code, as any number of
them interleave.  A call rests where it awaits: at the token lock, the database and the
token endpoint.
-/

namespace SsfTransmitter.Scim

open SsfTransmitter.Core
open SsfTransmitter.Python

/-! ## The stored tokens -/

/-- The row of `apple_scim_tokens`. -/
structure TokenRow where
  accessToken : PyStr
  refreshToken : Option PyStr
  expiresAt : ℤ
  updatedAt : ℤ
  deriving DecidableEq

/-- Why `int(value)` raises. -/
inductive IntError where
  | typeOrValueError
  | overflowError
  deriving DecidableEq

/-- What Python and SQLite do with numbers. -/
structure TokenRuntime where
  /-- `int(value)` -/
  int : Json → Except IntError ℤ
  /-- what a TEXT column keeps of a float; NaN is stored as NULL -/
  realText : PyStr → Option PyStr

/-- Integers that SQLite stores. -/
def fitsInteger (value : ℤ) : Bool :=
  decide (-(2 ^ 63) ≤ value) && decide (value < 2 ^ 63)

/-- The arguments of `save_tokens`. -/
structure ReceivedTokens where
  accessToken : Json
  refreshToken : Json
  expiresIn : ℤ

section Saving

variable (runtime : TokenRuntime)

/-- What a TEXT column keeps of a value, `none` where `sqlite3` refuses to bind it. -/
def columnText : Json → Option (Option PyStr)
  | .null => some none
  | .str text => if encodable text then some (some text) else none
  | .bool value => some (some (if value then "1" else "0"))
  | .int value =>
    if fitsInteger value then some (some (ofString (toString value))) else none
  | .float literal => some (runtime.realText literal)
  | .list _ | .dict _ => none

/-- The row after `save_tokens`, `none` where it raises. -/
def saveTokens (row : Option TokenRow) (received : ReceivedTokens) (now : ℤ) :
    Option TokenRow := do
  let safetyMargin := min 60 (max (received.expiresIn / 2) 0)
  let expiresAt := now + received.expiresIn - safetyMargin
  let accessToken ← columnText runtime received.accessToken
  let refreshToken ← columnText runtime received.refreshToken
  if fitsInteger expiresAt && fitsInteger now then
    -- `access_token TEXT NOT NULL`
    let accessToken ← accessToken
    -- `COALESCE(excluded.refresh_token, refresh_token)`
    some ⟨accessToken, refreshToken.or (row.bind TokenRow.refreshToken), expiresAt, now⟩
  else none

/-! ## Requests to the token endpoint -/

/-- What a request to the token endpoint sends. -/
inductive TokenRequest where
  | refreshToken (refreshToken : PyStr)
  | authorizationCode (code : PyStr)
  deriving DecidableEq

/-- How a call ends. -/
inductive TokenExit where
  /-- `get_valid_access_token` returned. -/
  | token (accessToken : Option PyStr)
  /-- The exchange returned. -/
  | authorized (expiresIn : ℤ) (hasRefreshToken : Bool)
  | raised
  deriving DecidableEq

/-- `get_valid_access_token` after `load_tokens`, with the start of `_refresh`: the call ends,
or goes on with a refresh token. -/
def checkTokens (row : Option TokenRow) (now : ℤ) : Except TokenExit PyStr :=
  match row with
  | none => .error (.token none)
  | some row =>
    if now < row.expiresAt then .error (.token (some row.accessToken))
    else
      match row.refreshToken with
      | none | some [] => .error (.token none)
      | some refreshToken => .ok refreshToken

theorem checkTokens_eq_ok {row : Option TokenRow} {now : ℤ} {refreshToken : PyStr}
    (hcheck : checkTokens row now = .ok refreshToken) :
    ∃ stored, row = some stored ∧ stored.refreshToken = some refreshToken := by
  cases row with
  | none => cases hcheck
  | some stored =>
      rw [checkTokens] at hcheck
      split_ifs at hcheck with hvalid
      split at hcheck
      · cases hcheck
      · cases hcheck
      · next hrefresh =>
        obtain rfl := Except.ok.inj hcheck
        exact ⟨stored, rfl, hrefresh⟩

/-- `int(raw_expires)`, replaced by 3600 where it is no positive number. -/
def expiresIn (data : Dict) : Except IntError ℤ :=
  match runtime.int (Dict.getD data "expires_in" .null) with
  | .ok value => .ok (if 0 < value then value else 3600)
  | .error .typeOrValueError => .ok 3600
  | .error .overflowError => .error .overflowError

/-- `_refresh` after its request. -/
def refreshAnswered : Outcome → Except TokenExit ReceivedTokens
  | .networkError => .error (.token none)
  | .refused => .error .raised
  | .response response =>
    if response.status ≠ 200 then .error (.token none)
    else
      match response.json with
      | .error _ => .error (.token none)
      | .ok (.dict data) =>
        match Dict.getD data "access_token" .null with
        | .str accessToken =>
          if accessToken.isEmpty then .error (.token none)
          else
            match expiresIn runtime data with
            | .ok expiresIn =>
              .ok ⟨.str accessToken, Dict.getD data "refresh_token" .null, expiresIn⟩
            | .error _ => .error .raised
        | _ => .error (.token none)
      -- `data.get` on something else than a dictionary
      | .ok _ => .error .raised

/-- `_exchange_authorization_code_locked` after its request. -/
def exchangeAnswered : Outcome → Except TokenExit ReceivedTokens
  | .networkError | .refused => .error .raised
  | .response response =>
    if response.status ≠ 200 then .error .raised
    else
      match response.json with
      | .ok (.dict data) =>
        match expiresIn runtime data with
        | .ok expiresIn =>
          let accessToken := Dict.getD data "access_token" .null
          if accessToken.truthy then
            .ok ⟨accessToken, Dict.getD data "refresh_token" .null, expiresIn⟩
          else .error .raised
        | .error _ => .error .raised
      | _ => .error .raised

def answered (request : TokenRequest) (outcome : Outcome) :
    Except TokenExit ReceivedTokens :=
  match request with
  | .refreshToken _ => refreshAnswered runtime outcome
  | .authorizationCode _ => exchangeAnswered runtime outcome

/-- What a call returns once its tokens are saved. -/
def exitSaved (request : TokenRequest) (received : ReceivedTokens) : TokenExit :=
  match request, received.accessToken with
  | .refreshToken _, .str accessToken => .token (some accessToken)
  | .refreshToken _, _ => .raised
  | .authorizationCode _, _ =>
    .authorized received.expiresIn received.refreshToken.truthy

end Saving

/-! ## Calls and their interleavings -/

inductive Grant where
  /-- `get_valid_access_token()` -/
  | refreshToken
  /-- `_exchange_authorization_code(code)` -/
  | authorizationCode (code : PyStr)
  deriving DecidableEq

/-- Where a call rests.  With the tokens that it read and with a request it carries the
number of saves by then: the version of the row. -/
inductive TokenStage where
  | idle
  | waiting (grant : Grant)
  /-- It has the lock; the database or the endpoint comes next. -/
  | entered (grant : Grant)
  | loaded (row : Option TokenRow) (version : ℕ)
  | requesting (request : TokenRequest) (version : ℕ)
  /-- In `save_tokens`; its response was the one with this number. -/
  | saving (request : TokenRequest) (version number : ℕ) (received : ReceivedTokens)
  /-- It leaves the `async with`, after an alert where there is one to send. -/
  | closing (exit : TokenExit)
  | finished (exit : TokenExit)
  | withdrawn

/-- A return of `save_tokens`: the response, and the row that it left. -/
structure Saved where
  request : TokenRequest
  version : ℕ
  number : ℕ
  received : ReceivedTokens
  row : TokenRow

/-- The token lock, the row and the calls; beside them what happened so far. -/
structure TokenWorld where
  lock : FairLock ℕ
  row : Option TokenRow
  stages : ℕ → TokenStage
  /-- how many responses were obtained -/
  responses : ℕ
  saves : List Saved

inductive TokenAction where
  | call (call : ℕ) (grant : Grant)
  /-- The lock is handed to the first waiter. -/
  | handOver (call : ℕ)
  /-- A waiter is cancelled. -/
  | withdraw (call : ℕ)
  | load (call : ℕ)
  | check (call : ℕ) (now : ℤ)
  | send (call : ℕ)
  | answer (call : ℕ) (outcome : Outcome)
  | save (call : ℕ) (now : ℤ)
  | release (call : ℕ)

namespace TokenWorld

def place (call : ℕ) (stage : TokenStage) (world : TokenWorld) : TokenWorld :=
  { world with stages := Function.update world.stages call stage }

/-- The stored tokens are looked at. -/
def checkLoaded (call : ℕ) (row : Option TokenRow) (version : ℕ) (now : ℤ)
    (world : TokenWorld) : TokenWorld :=
  match checkTokens row now with
  | .error exit => world.place call (.closing exit)
  | .ok refreshToken => world.place call (.requesting (.refreshToken refreshToken) version)

variable (runtime : TokenRuntime)

/-- A response is obtained. -/
def receive (call : ℕ) (request : TokenRequest) (version : ℕ) (outcome : Outcome)
    (world : TokenWorld) : TokenWorld :=
  match answered runtime request outcome with
  | .error exit =>
    { world.place call (.closing exit) with responses := world.responses + 1 }
  | .ok received =>
    { world.place call (.saving request version world.responses received) with
      responses := world.responses + 1 }

/-- `save_tokens` returns or raises. -/
def saveReceived (call : ℕ) (request : TokenRequest) (version number : ℕ)
    (received : ReceivedTokens) (now : ℤ) (world : TokenWorld) : TokenWorld :=
  match saveTokens runtime world.row received now with
  | none => world.place call (.closing .raised)
  | some row =>
    { world.place call (.closing (exitSaved request received)) with
      row := some row
      saves := world.saves ++ [⟨request, version, number, received, row⟩] }

/-- One step of a call.  The database works, and no call is cancelled that has the lock. -/
def step (world : TokenWorld) : TokenAction → Option TokenWorld
  | .call call grant =>
    match world.stages call with
    | .idle =>
      let stage := if world.lock.available then .entered grant else .waiting grant
      some { world.place call stage with lock := world.lock.acquire call }
    | _ => none
  | .handOver call =>
    match world.stages call with
    | .waiting grant => (world.lock.handOver call).map fun lock =>
        { world.place call (.entered grant) with lock := lock }
    | _ => none
  | .withdraw call =>
    match world.stages call with
    | .waiting _ =>
      some { world.place call .withdrawn with lock := world.lock.withdraw call }
    | _ => none
  | .load call =>
    match world.stages call with
    | .entered .refreshToken => some (world.place call (.loaded world.row world.saves.length))
    | _ => none
  | .check call now =>
    match world.stages call with
    | .loaded row version => some (world.checkLoaded call row version now)
    | _ => none
  | .send call =>
    match world.stages call with
    | .entered (.authorizationCode code) =>
      some (world.place call (.requesting (.authorizationCode code) world.saves.length))
    | _ => none
  | .answer call outcome =>
    match world.stages call with
    | .requesting request version => some (world.receive runtime call request version outcome)
    | _ => none
  | .save call now =>
    match world.stages call with
    | .saving request version number received =>
      some (world.saveReceived runtime call request version number received now)
    | _ => none
  | .release call =>
    match world.stages call with
    | .closing exit =>
      some { world.place call (.finished exit) with lock := world.lock.release }
    | _ => none

end TokenWorld

/-- Any number of calls, from any stored row. -/
def tokenRotation (runtime : TokenRuntime) : TransitionSystem TokenWorld TokenAction where
  initial world := ∃ row, world = ⟨.free, row, fun _ => .idle, 0, []⟩
  step := TokenWorld.step runtime

/-! ## What holds of a call where it rests -/

namespace TokenStage

/-- The call does not have the lock. -/
def passive : TokenStage → Bool
  | .idle | .waiting _ | .finished _ | .withdrawn => true
  | _ => false

end TokenStage

namespace TokenWorld

/-- The row has this refresh token. -/
def Stored (world : TokenWorld) : TokenRequest → Prop
  | .refreshToken refreshToken =>
    ∃ row, world.row = some row ∧ row.refreshToken = some refreshToken
  | .authorizationCode _ => True

/-- What a call may rely on where it rests. -/
def Sound (world : TokenWorld) (call : ℕ) : TokenStage → Prop
  | .idle | .waiting _ | .finished _ | .withdrawn => True
  | .entered _ | .closing _ => world.lock.holder = some call
  | .loaded row version =>
    world.lock.holder = some call ∧ row = world.row ∧ version = world.saves.length
  | .requesting request version =>
    world.lock.holder = some call ∧ version = world.saves.length ∧ world.Stored request
  | .saving _ version number _ =>
    world.lock.holder = some call ∧ version = world.saves.length ∧ number < world.responses ∧
      ∀ saved ∈ world.saves, saved.number < number

variable {runtime : TokenRuntime} {world next : TokenWorld} {call other : ℕ}
  {stage : TokenStage}

theorem Sound.holder (hsound : world.Sound call stage) (hactive : stage.passive = false) :
    world.lock.holder = some call := by
  cases stage with
  | idle | waiting _ | finished _ | withdrawn => cases hactive
  | entered _ | closing _ => exact hsound
  | loaded _ _ | requesting _ _ | saving _ _ _ _ => exact hsound.1

theorem sound_of_passive (hpassive : stage.passive = true) : world.Sound call stage := by
  cases stage with
  | idle | waiting _ | finished _ | withdrawn => trivial
  | entered _ | closing _ | loaded _ _ | requesting _ _ | saving _ _ _ _ => cases hpassive

/-- A call without the lock relies on nothing. -/
theorem Sound.of_not_holder (hsound : world.Sound call stage)
    (hother : world.lock.holder ≠ some call) : next.Sound call stage := by
  cases hpassive : stage.passive with
  | true => exact sound_of_passive hpassive
  | false => exact absurd (hsound.holder hpassive) hother

/-- The same lock, row and history. -/
structure Agrees (world next : TokenWorld) : Prop where
  holder : next.lock.holder = world.lock.holder
  row : next.row = world.row
  saves : next.saves = world.saves
  responses : next.responses = world.responses

theorem Sound.congr (hsound : world.Sound call stage) (hagrees : world.Agrees next) :
    next.Sound call stage := by
  obtain ⟨hholder, hrow, hsaves, hresponses⟩ := hagrees
  cases stage with
  | idle | waiting _ | finished _ | withdrawn => trivial
  | entered _ | closing _ => exact hholder.trans hsound
  | loaded row version =>
      rw [Sound, hholder, hrow, hsaves]
      exact hsound
  | requesting request version =>
      cases request with
      | refreshToken refreshToken =>
          simp only [Sound, Stored, hholder, hrow, hsaves]
          exact hsound
      | authorizationCode code =>
          simp only [Sound, Stored, hholder, hsaves]
          exact hsound
  | saving request version number received =>
      rw [Sound, hholder, hsaves, hresponses]
      exact hsound

/-- Every call is where it may be. -/
def AllSound (world : TokenWorld) : Prop :=
  ∀ call, world.Sound call (world.stages call)

/-- A step of the call that has the lock, or takes it while it is free. -/
theorem AllSound.move (call : ℕ) (hsound : world.AllSound)
    (hholder : ∀ other, other ≠ call → world.lock.holder ≠ some other)
    (hstages : next.stages = Function.update world.stages call stage)
    (hnew : next.Sound call stage) : next.AllSound := by
  intro other
  rw [hstages]
  by_cases hother : other = call
  · subst hother
    rw [Function.update_self]
    exact hnew
  · rw [Function.update_of_ne hother]
    exact (hsound other).of_not_holder (hholder other hother)

/-- A step that leaves the lock with its holder. -/
theorem AllSound.rest (call : ℕ) (hsound : world.AllSound) (hagrees : world.Agrees next)
    (hstages : next.stages = Function.update world.stages call stage)
    (hpassive : stage.passive = true) : next.AllSound := by
  intro other
  rw [hstages]
  by_cases hother : other = call
  · subst hother
    rw [Function.update_self]
    exact sound_of_passive hpassive
  · rw [Function.update_of_ne hother]
    exact (hsound other).congr hagrees

theorem AllSound.holder (hsound : world.AllSound) {stage : TokenStage}
    (hstage : world.stages call = stage) (hactive : stage.passive = false) :
    ∀ other, other ≠ call → world.lock.holder ≠ some other := by
  intro other hother hholder
  have hcall := hsound call
  rw [hstage] at hcall
  rw [hcall.holder hactive] at hholder
  exact hother (Option.some.inj hholder).symm

end TokenWorld

/-! ## What holds of the history -/

section History

variable (runtime : TokenRuntime)

/-- The row has the tokens of a response, and the refresh token it had before where the
response has none: no such member, or null. -/
structure Stores (before : Option TokenRow) (received : ReceivedTokens) (row : TokenRow) :
    Prop where
  accessToken : columnText runtime received.accessToken = some (some row.accessToken)
  refreshToken : ∃ text, columnText runtime received.refreshToken = some text ∧
    row.refreshToken = text.or (before.bind TokenRow.refreshToken)

/-- Each save stored its response over the row that the save before it left. -/
def Successive : Option TokenRow → List Saved → Option TokenRow → Prop
  | before, [], row => row = before
  | before, saved :: saves, row =>
    Stores runtime before saved.received saved.row ∧ Successive (some saved.row) saves row

variable {runtime}

theorem stores_saveTokens {before : Option TokenRow} {received : ReceivedTokens} {now : ℤ}
    {row : TokenRow} (hrow : saveTokens runtime before received now = some row) :
    Stores runtime before received row := by
  simp only [saveTokens, Option.bind_eq_bind, Option.bind_eq_some_iff] at hrow
  obtain ⟨access, haccess, refresh, hrefresh, hrow⟩ := hrow
  split_ifs at hrow with hfits
  obtain ⟨accessToken, rfl, hrow⟩ := Option.bind_eq_some_iff.mp hrow
  obtain rfl := Option.some.inj hrow
  exact ⟨haccess, refresh, hrefresh, rfl⟩

theorem Successive.concat {before row : Option TokenRow} {saves : List Saved} {saved : Saved}
    (hsaves : Successive runtime before saves row)
    (hsaved : Stores runtime row saved.received saved.row) :
    Successive runtime before (saves ++ [saved]) (some saved.row) := by
  induction saves generalizing before with
  | nil =>
      obtain rfl : row = before := hsaves
      exact ⟨hsaved, rfl⟩
  | cons first saves ih => exact ⟨hsaves.1, ih hsaves.2⟩

/-- The history of a run from a stored row. -/
structure Recorded (runtime : TokenRuntime) (start : Option TokenRow) (world : TokenWorld) :
    Prop where
  sound : world.AllSound
  successive : Successive runtime start world.saves world.row
  versions : world.saves.map Saved.version = List.range world.saves.length
  numbers : (world.saves.map Saved.number).Pairwise (· < ·)
  below : ∀ saved ∈ world.saves, saved.number < world.responses

variable {start : Option TokenRow} {world next : TokenWorld}

/-- A step that adds no save. -/
theorem Recorded.unsaved (hworld : Recorded runtime start world) (hsound : next.AllSound)
    (hrow : next.row = world.row) (hsaves : next.saves = world.saves)
    (hresponses : world.responses ≤ next.responses) : Recorded runtime start next where
  sound := hsound
  successive := by
    rw [hrow, hsaves]
    exact hworld.successive
  versions := by
    rw [hsaves]
    exact hworld.versions
  numbers := by
    rw [hsaves]
    exact hworld.numbers
  below := by
    rw [hsaves]
    exact fun saved hsaved => (hworld.below saved hsaved).trans_le hresponses

/-- A step of the call that has the lock. -/
theorem Recorded.moved (hworld : Recorded runtime start world) {call : ℕ}
    {before after : TokenStage} (hbefore : world.stages call = before)
    (hactive : before.passive = false)
    (hstages : next.stages = Function.update world.stages call after)
    (hafter : next.Sound call after) (hrow : next.row = world.row)
    (hsaves : next.saves = world.saves) (hresponses : world.responses ≤ next.responses) :
    Recorded runtime start next :=
  hworld.unsaved (hworld.sound.move call (hworld.sound.holder hbefore hactive) hstages hafter)
    hrow hsaves hresponses

/-- Tokens are saved by the call that has the lock. -/
theorem Recorded.saved (hworld : Recorded runtime start world) {call version number : ℕ}
    {request : TokenRequest} {received : ReceivedTokens} {now : ℤ}
    (hstage : world.stages call = .saving request version number received) :
    Recorded runtime start
      (world.saveReceived runtime call request version number received now) := by
  have hholder := hworld.sound.holder hstage rfl
  have hcall := hworld.sound call
  rw [hstage] at hcall
  obtain ⟨hlock, hversion, hnumber, hlater⟩ := hcall
  rw [TokenWorld.saveReceived]
  split
  · exact hworld.moved hstage rfl rfl hlock rfl rfl le_rfl
  · next row hrow =>
    have hstores := stores_saveTokens hrow
    constructor
    case sound => exact hworld.sound.move call hholder rfl hlock
    case successive => exact hworld.successive.concat hstores
    case versions =>
      change (world.saves ++ _).map Saved.version = List.range (world.saves ++ _).length
      rw [List.map_append, hworld.versions, List.length_append, List.length_singleton,
        List.range_succ, hversion]
      rfl
    case numbers =>
      change ((world.saves ++ _).map Saved.number).Pairwise (· < ·)
      rw [List.map_append, List.pairwise_append]
      refine ⟨hworld.numbers, List.pairwise_singleton _ _,
        fun earlier hearlier later hlast => ?_⟩
      obtain ⟨saved, hsaved, rfl⟩ := List.mem_map.mp hearlier
      obtain rfl := List.mem_singleton.mp hlast
      exact hlater saved hsaved
    case below =>
      intro saved hsaved
      rcases List.mem_append.mp hsaved with hold | hnew
      · exact hworld.below saved hold
      · obtain rfl := List.mem_singleton.mp hnew
        exact hnumber

theorem Recorded.step (hworld : Recorded runtime start world) {action : TokenAction}
    (hstep : world.step runtime action = some next) : Recorded runtime start next := by
  cases action with
  | call call grant =>
      simp only [TokenWorld.step] at hstep
      split at hstep
      · next hstage =>
        obtain rfl := Option.some.inj hstep
        by_cases havailable : world.lock.available = true
        · have hfree := FairLock.holder_of_available havailable
          refine hworld.unsaved (hworld.sound.move call ?_ rfl ?_) rfl rfl le_rfl
          · simp [hfree]
          · rw [if_pos havailable]
            exact FairLock.holder_acquire_of_available havailable
        · refine hworld.unsaved (hworld.sound.rest call ⟨?_, rfl, rfl, rfl⟩ rfl ?_) rfl
            rfl le_rfl
          · exact FairLock.holder_acquire_of_not_available havailable
          · rw [if_neg havailable]
            rfl
      · cases hstep
  | handOver call =>
      simp only [TokenWorld.step] at hstep
      split at hstep
      · next grant hstage =>
        obtain ⟨lock, hlock, rfl⟩ := Option.map_eq_some_iff.mp hstep
        obtain ⟨hfree, htaken⟩ := FairLock.handOver_eq_some hlock
        refine hworld.unsaved (hworld.sound.move call ?_ rfl htaken) rfl rfl le_rfl
        simp [hfree]
      · cases hstep
  | withdraw call =>
      simp only [TokenWorld.step] at hstep
      split at hstep
      · obtain rfl := Option.some.inj hstep
        exact hworld.unsaved (hworld.sound.rest call ⟨rfl, rfl, rfl, rfl⟩ rfl rfl) rfl
          rfl le_rfl
      · cases hstep
  | load call =>
      simp only [TokenWorld.step] at hstep
      split at hstep
      · next hstage =>
        obtain rfl := Option.some.inj hstep
        have hcall := hworld.sound call
        rw [hstage] at hcall
        exact hworld.moved hstage rfl rfl ⟨hcall, rfl, rfl⟩ rfl rfl le_rfl
      · cases hstep
  | check call now =>
      simp only [TokenWorld.step] at hstep
      split at hstep
      · next row version hstage =>
        obtain rfl := Option.some.inj hstep
        have hcall := hworld.sound call
        rw [hstage] at hcall
        obtain ⟨hlock, hrow, hversion⟩ := hcall
        rw [TokenWorld.checkLoaded]
        split
        · exact hworld.moved hstage rfl rfl hlock rfl rfl le_rfl
        · next refreshToken hcheck =>
          refine hworld.moved hstage rfl rfl ⟨hlock, hversion, ?_⟩ rfl rfl le_rfl
          obtain ⟨stored, hstored, hrefresh⟩ := checkTokens_eq_ok hcheck
          exact ⟨stored, hrow.symm.trans hstored, hrefresh⟩
      · cases hstep
  | send call =>
      simp only [TokenWorld.step] at hstep
      split at hstep
      · next code hstage =>
        obtain rfl := Option.some.inj hstep
        have hcall := hworld.sound call
        rw [hstage] at hcall
        exact hworld.moved hstage rfl rfl ⟨hcall, rfl, trivial⟩ rfl rfl le_rfl
      · cases hstep
  | answer call outcome =>
      simp only [TokenWorld.step] at hstep
      split at hstep
      · next request version hstage =>
        obtain rfl := Option.some.inj hstep
        have hcall := hworld.sound call
        rw [hstage] at hcall
        obtain ⟨hlock, hversion, -⟩ := hcall
        rw [TokenWorld.receive]
        split
        · exact hworld.moved hstage rfl rfl hlock rfl rfl (Nat.le_succ _)
        · exact hworld.moved hstage rfl rfl
            ⟨hlock, hversion, Nat.lt_succ_self _, hworld.below⟩ rfl rfl (Nat.le_succ _)
      · cases hstep
  | save call now =>
      simp only [TokenWorld.step] at hstep
      split at hstep
      · next hstage =>
        obtain rfl := Option.some.inj hstep
        exact hworld.saved hstage
      · cases hstep
  | release call =>
      simp only [TokenWorld.step] at hstep
      split at hstep
      · next exit hstage =>
        obtain rfl := Option.some.inj hstep
        exact hworld.moved hstage rfl rfl trivial rfl rfl le_rfl
      · cases hstep

theorem recorded_of_path {first world : TokenWorld}
    (hfirst : (tokenRotation runtime).initial first)
    (hpath : (tokenRotation runtime).Path (fun _ => True) first world) :
    Recorded runtime first.row world := by
  refine hpath.preserves (fun source action target hsource _ hstep => hsource.step hstep) ?_
  obtain ⟨row, rfl⟩ := hfirst
  exact ⟨fun _ => trivial, rfl, rfl, .nil, nofun⟩

/-- Requests to the token endpoint never overlap, and each refresh sends the refresh token
that is stored.  The stored tokens are those of the last response that was saved, in the
order in which the responses came.  No version of the row is refreshed twice: every save
has the version that its call found. -/
theorem rotation_serialized {first world : TokenWorld}
    (hfirst : (tokenRotation runtime).initial first)
    (hpath : (tokenRotation runtime).Path (fun _ => True) first world) :
    (∀ one other request otherRequest version otherVersion,
      world.stages one = .requesting request version →
      world.stages other = .requesting otherRequest otherVersion → one = other) ∧
    (∀ call refreshToken version,
      world.stages call = .requesting (.refreshToken refreshToken) version →
      ∃ row, world.row = some row ∧ row.refreshToken = some refreshToken) ∧
    Successive runtime first.row world.saves world.row ∧
    (world.saves.map Saved.number).Pairwise (· < ·) ∧
    (world.saves.map Saved.version).Nodup := by
  have hworld := recorded_of_path hfirst hpath
  refine ⟨?_, ?_, hworld.successive, hworld.numbers, ?_⟩
  · intro one other request otherRequest version otherVersion hone hother
    have hsound := hworld.sound one
    rw [hone] at hsound
    by_contra hne
    exact hworld.sound.holder hother rfl one hne hsound.1
  · intro call refreshToken version hstage
    have hsound := hworld.sound call
    rw [hstage] at hsound
    exact hsound.2.2
  · rw [hworld.versions]
    exact List.nodup_range

end History

/-! ## A run -/

section Sample

/-- `int` of the numbers of JSON. -/
def sampleRuntime : TokenRuntime where
  int
    | .int value => .ok value
    | _ => .error .typeOrValueError
  realText literal := some literal

def expiredRow : TokenRow :=
  ⟨"expired", some "old-refresh", 0, 0⟩

def tokenResponse (accessToken refreshToken : PyStr) : Outcome :=
  .response ⟨200, .json (.dict [("access_token", .str accessToken),
    ("refresh_token", .str refreshToken), ("expires_in", .int 3600)]), true⟩

/-- Two calls wait on the expired token, and a code is exchanged between them. -/
def sampleRotation : List TokenAction :=
  [.call 0 .refreshToken, .call 1 (.authorizationCode "code"), .call 2 .refreshToken, .load 0,
    .check 0 100, .answer 0 (tokenResponse "refreshed" "rotated"), .save 0 101, .release 0,
    .handOver 1, .send 1, .answer 1 (tokenResponse "authorized" "new-grant"), .save 1 102,
    .release 1, .handOver 2, .load 2, .check 2 103, .release 2]

theorem rotation_serialized_sample :
    ∃ world, (tokenRotation sampleRuntime).run ⟨.free, some expiredRow, fun _ => .idle, 0, []⟩
        sampleRotation = some world ∧
      world.row = some ⟨"authorized", some "new-grant", 3642, 102⟩ ∧
      (world.saves.map Saved.number).Pairwise (· < ·) := by
  have hsample : (((tokenRotation sampleRuntime).run
      ⟨.free, some expiredRow, fun _ => .idle, 0, []⟩ sampleRotation).map TokenWorld.row) =
        some (some ⟨"authorized", some "new-grant", 3642, 102⟩) := by
    decide +kernel
  obtain ⟨world, hrun, hrow⟩ := Option.map_eq_some_iff.mp hsample
  have hpath := TransitionSystem.path_of_run (fun _ _ => trivial) hrun
  exact ⟨world, hrun, hrow, (rotation_serialized ⟨_, rfl⟩ hpath).2.2.2.1⟩

end Sample

end SsfTransmitter.Scim
