import SsfTransmitter.Core.SlidingWindow
import Mathlib.Algebra.Order.Field.Rat
import Mathlib.Data.List.Induction

/-!
# Failed management authentications

`_record_management_auth_failure` of `app.auth`: a bounded deque of times for each
client.  It refuses a client exactly when the unbounded record of that client's
failures has too many of the last minute.
-/

namespace SsfTransmitter.Routes

open SsfTransmitter.Core

/-- The floats of `time.monotonic()`, whose difference is rounded but keeps their order. -/
class MonotonicTime (Time : Type) extends LinearOrder Time, Sub Time, OfNat Time 60 where
  sub_mono : ∀ {now later earlier time : Time}, now ≤ later → earlier ≤ time →
    now - time ≤ later - earlier
  sub_self_lt : ∀ now : Time, now - now < 60

instance : MonotonicTime ℚ where
  sub_mono hlater hearlier := sub_le_sub hlater hearlier
  sub_self_lt now := by
    rw [sub_self]
    decide +kernel

/-! ## The limiter -/

/-- `_MANAGEMENT_AUTH_FAILURE_LIMIT` -/
def managementAuthFailureLimit : ℕ := 10

/-- `HTTPException` -/
structure HttpException where
  statusCode : ℕ
  detail : String
  deriving DecidableEq

/-- A request that failed: `request.client.host`, where there is a client. -/
structure FailedRequest where
  clientHost : Option String

/-- `_client_key` -/
def FailedRequest.clientKey (request : FailedRequest) : String :=
  match request.clientHost with
  | some host => if host = "" then "unknown-client" else host
  | none => "unknown-client"

section Limiter

variable {Time : Type} [MonotonicTime Time]

/-- `_MANAGEMENT_AUTH_FAILURE_WINDOW_SECONDS` -/
def managementAuthFailureWindowSeconds : Time := 60

/-- `now - attempt >= _MANAGEMENT_AUTH_FAILURE_WINDOW_SECONDS` -/
def failureWindow : AgeLimit Time where
  expired now attempt := decide (managementAuthFailureWindowSeconds ≤ now - attempt)
  fresh_self now := decide_eq_false (MonotonicTime.sub_self_lt now).not_ge
  expired_mono hlater hearlier hexpired :=
    decide_eq_true ((of_decide_eq_true hexpired).trans
      (MonotonicTime.sub_mono hlater hearlier))

/-- `_management_auth_failures`: no entry is the empty deque that reading one makes. -/
abbrev AuthFailures (Time : Type) := String → Option (List Time)

/-- `_record_management_auth_failure` at a time, where the limiter is enabled or not. -/
def recordManagementAuthFailure (enabled : Bool) (failures : AuthFailures Time)
    (request : FailedRequest) (now : Time) : Except HttpException Unit × AuthFailures Time :=
  if !enabled then (.ok (), failures)
  else
    let attempts := failureWindow.prune ((failures request.clientKey).getD []) now
    -- an empty deque is dropped, and read again as a new one
    let failures := if attempts.isEmpty then Function.update failures request.clientKey none
      else Function.update failures request.clientKey (some attempts)
    let attempts := (failures request.clientKey).getD []
    -- `maxlen=_MANAGEMENT_AUTH_FAILURE_LIMIT + 1`
    let attempts := AgeLimit.append (managementAuthFailureLimit + 1) attempts now
    let exceeded := managementAuthFailureLimit < attempts.length
    (if exceeded then .error ⟨429, "Rate limit exceeded"⟩ else .ok (),
      Function.update failures request.clientKey (some attempts))

/-- What the process has recorded after some failures. -/
def failuresAfter (history : List (FailedRequest × Time)) : AuthFailures Time :=
  history.foldl (fun failures failure =>
    (recordManagementAuthFailure true failures failure.1 failure.2).2) fun _ => none

/-- All times at which a client failed. -/
def failuresOf (key : String) (history : List (FailedRequest × Time)) : List Time :=
  (history.filter fun failure => failure.1.clientKey = key).map Prod.snd

/-- A client's failures of the last minute. -/
def recentFailures (key : String) (now : Time) (history : List (FailedRequest × Time)) :
    List (FailedRequest × Time) :=
  history.filter fun failure => failure.1.clientKey = key ∧
    now - failure.2 < managementAuthFailureWindowSeconds

end Limiter

/-! ## The window -/

section Window

variable {Time : Type} [MonotonicTime Time] {history : List (FailedRequest × Time)}
  {failures : AuthFailures Time} {request : FailedRequest} {now : Time}

/-- The deque of a client that has one more failure. -/
def recorded (failures : AuthFailures Time) (request : FailedRequest) (now : Time) :
    List Time :=
  AgeLimit.append (managementAuthFailureLimit + 1)
    (failureWindow.prune ((failures request.clientKey).getD []) now) now

theorem recordManagementAuthFailure_eq :
    recordManagementAuthFailure true failures request now =
      (if managementAuthFailureLimit < (recorded failures request now).length then
          .error ⟨429, "Rate limit exceeded"⟩ else .ok (),
        Function.update failures request.clientKey (some (recorded failures request now))) := by
  rw [recordManagementAuthFailure, recorded]
  cases hattempts : failureWindow.prune ((failures request.clientKey).getD []) now with
  | nil => simp
  | cons first rest => simp

/-- Each client's deque keeps track of that client's failures. -/
def Tracked (history : List (FailedRequest × Time)) (failures : AuthFailures Time) : Prop :=
  ∀ key, failureWindow.Tracks (managementAuthFailureLimit + 1) (failuresOf key history)
    ((failures key).getD [])

omit [MonotonicTime Time] in
theorem failuresOf_sublist (key : String) (history : List (FailedRequest × Time)) :
    (failuresOf key history).Sublist (history.map Prod.snd) :=
  List.filter_sublist.map Prod.snd

theorem ordered_failuresOf (key : String)
    (hordered : (history.map Prod.snd ++ [now]).Pairwise (· ≤ ·)) :
    (failuresOf key history ++ [now]).Pairwise (· ≤ ·) :=
  hordered.sublist ((failuresOf_sublist key history).append (List.Sublist.refl _))

omit [MonotonicTime Time] in
theorem failuresOf_concat_self :
    failuresOf request.clientKey (history ++ [(request, now)]) =
      failuresOf request.clientKey history ++ [now] := by
  simp [failuresOf, List.filter_append]

omit [MonotonicTime Time] in
theorem failuresOf_concat_of_ne {key : String} (hother : request.clientKey ≠ key) :
    failuresOf key (history ++ [(request, now)]) = failuresOf key history := by
  simp [failuresOf, List.filter_append, hother]

theorem Tracked.record (htracked : Tracked history failures)
    (hordered : (history.map Prod.snd ++ [now]).Pairwise (· ≤ ·)) :
    Tracked (history ++ [(request, now)])
      (recordManagementAuthFailure true failures request now).2 := by
  intro key
  rw [recordManagementAuthFailure_eq]
  dsimp only
  by_cases hkey : request.clientKey = key
  · subst hkey
    rw [failuresOf_concat_self, Function.update_self]
    exact ((htracked request.clientKey).record (ordered_failuresOf _ hordered)).1
  · rw [failuresOf_concat_of_ne hkey, Function.update_of_ne (Ne.symm hkey)]
    exact htracked key

theorem failuresAfter_concat :
    failuresAfter (history ++ [(request, now)]) =
      (recordManagementAuthFailure true (failuresAfter history) request now).2 := by
  rw [failuresAfter, List.foldl_append]
  rfl

theorem tracked_failuresAfter (hordered : (history.map Prod.snd).Pairwise (· ≤ ·)) :
    Tracked history (failuresAfter history) := by
  induction history using List.reverseRecOn with
  | nil => exact fun _ => AgeLimit.tracks_nil
  | append_singleton history failure ih =>
      obtain ⟨request, now⟩ := failure
      rw [List.map_append] at hordered
      rw [failuresAfter_concat]
      exact (ih (List.pairwise_append.mp hordered).1).record hordered

theorem length_recentFailures (key : String) :
    (recentFailures key now history).length =
      (failureWindow.recent now (failuresOf key history)).length := by
  rw [recentFailures, AgeLimit.recent, failuresOf, List.filter_map, List.length_map,
    List.filter_filter]
  congr 1
  refine List.filter_congr fun failure _ => Bool.eq_iff_iff.mpr ?_
  simp [failureWindow, and_comm]

theorem recordManagementAuthFailure_of_history
    (hordered : (history.map Prod.snd ++ [now]).Pairwise (· ≤ ·)) :
    (recordManagementAuthFailure true (failuresAfter history) request now).1 =
      if managementAuthFailureLimit <
          (recentFailures request.clientKey now (history ++ [(request, now)])).length then
        .error ⟨429, "Rate limit exceeded"⟩
      else .ok () := by
  have htracked := tracked_failuresAfter (List.pairwise_append.mp hordered).1
  have hlimit := ((htracked request.clientKey).record (ordered_failuresOf _ hordered)).2
  rw [← failuresOf_concat_self, ← length_recentFailures] at hlimit
  rw [recordManagementAuthFailure_eq]
  exact if_congr hlimit rfl rfl

theorem recentFailures_concat (key : String) (failure : FailedRequest × Time) :
    recentFailures key now (history ++ [failure]) =
      recentFailures key now history ++ recentFailures key now [failure] :=
  List.filter_append ..

theorem recentFailures_filter (key : String) :
    recentFailures key now (history.filter fun failure => failure.1.clientKey = key) =
      recentFailures key now history := by
  rw [recentFailures, List.filter_filter]
  refine List.filter_congr fun failure _ => ?_
  grind

/-- A failure is refused exactly when its client had more than ten of the last minute, this
one and refused ones among them.  Other clients' failures do not matter. -/
theorem recordManagementAuthFailure_slidingWindow
    (hordered : (history.map Prod.snd ++ [now]).Pairwise (· ≤ ·)) :
    (recordManagementAuthFailure true (failuresAfter history) request now).1 =
      (if managementAuthFailureLimit <
          (recentFailures request.clientKey now (history ++ [(request, now)])).length then
        .error ⟨429, "Rate limit exceeded"⟩
      else .ok ()) ∧
    (recordManagementAuthFailure true (failuresAfter history) request now).1 =
      (recordManagementAuthFailure true (failuresAfter (history.filter fun failure =>
        failure.1.clientKey = request.clientKey)) request now).1 := by
  have hfiltered : (((history.filter fun failure =>
      failure.1.clientKey = request.clientKey).map Prod.snd) ++ [now]).Pairwise (· ≤ ·) :=
    ordered_failuresOf request.clientKey hordered
  refine ⟨recordManagementAuthFailure_of_history hordered, ?_⟩
  rw [recordManagementAuthFailure_of_history hordered,
    recordManagementAuthFailure_of_history hfiltered, recentFailures_concat,
    recentFailures_concat, recentFailures_filter]

end Window

/-! ## A run -/

/-- Ten failures of one client a second apart, and one of another. -/
def sampleFailures : List (FailedRequest × ℚ) :=
  (List.range 10).map (fun second : ℕ => (⟨some "192.0.2.1"⟩, (second : ℚ))) ++
    [(⟨some "192.0.2.2"⟩, 9)]

/-- The next failure of that client is the eleventh within a minute of the first; the one
after it comes when the first three have expired. -/
theorem recordManagementAuthFailure_slidingWindow_sample :
    (recordManagementAuthFailure true (failuresAfter sampleFailures)
        ⟨some "192.0.2.1"⟩ 59).1 = .error ⟨429, "Rate limit exceeded"⟩ ∧
      (recordManagementAuthFailure true (failuresAfter sampleFailures)
        ⟨some "192.0.2.1"⟩ 62).1 = .ok () := by
  constructor
  · rw [(recordManagementAuthFailure_slidingWindow (by decide +kernel)).1]
    decide +kernel
  · rw [(recordManagementAuthFailure_slidingWindow (by decide +kernel)).1]
    decide +kernel

end SsfTransmitter.Routes
