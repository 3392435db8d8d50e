import Mathlib.Data.List.TakeWhile
import Mathlib.Order.Lattice
import Mathlib.Tactic.Common

/-!
# Sliding windows

A log of the times of events that drops what has expired and holds no more than a
capacity.  Counted up to that capacity, it agrees with the log of all events.
-/

namespace SsfTransmitter.Core

/-- When a time is too old, seen from another. -/
structure AgeLimit (Time : Type*) [LinearOrder Time] where
  expired : Time → Time → Bool
  fresh_self : ∀ now, expired now now = false
  expired_mono : ∀ {now later earlier time : Time}, now ≤ later → earlier ≤ time →
    expired now time = true → expired later earlier = true

namespace AgeLimit

variable {Time : Type*} [LinearOrder Time] (window : AgeLimit Time)

/-- What has expired leaves the log at its front. -/
def prune (log : List Time) (now : Time) : List Time :=
  log.dropWhile (window.expired now)

/-- A new entry; beyond the capacity the oldest entries make room. -/
def append (capacity : ℕ) (log : List Time) (now : Time) : List Time :=
  (log ++ [now]).drop (log.length + 1 - capacity)

/-- The times that have not expired. -/
def recent (now : Time) (times : List Time) : List Time :=
  times.filter fun time => !window.expired now time

/-- The log ends like the list of all times.  What it lacks has expired by now, unless the
log is full. -/
structure Tracks (capacity : ℕ) (times log : List Time) : Prop where
  length_le : log.length ≤ capacity
  forgotten : ∃ forgotten, times = forgotten ++ log ∧
    (capacity ≤ log.length ∨ ∀ later, (∀ time ∈ times, time ≤ later) →
      ∀ time ∈ forgotten, window.expired later time = true)

variable {window} {capacity : ℕ} {times log : List Time} {now : Time}

theorem tracks_nil : window.Tracks capacity [] [] where
  length_le := Nat.zero_le _
  forgotten := ⟨[], rfl, .inr (by simp)⟩

/-- In an ordered log, what is left of it has not expired. -/
theorem fresh_of_mem_prune (hordered : log.Pairwise (· ≤ ·)) :
    ∀ time ∈ window.prune log now, window.expired now time = false := by
  rw [prune]
  induction log with
  | nil => simp
  | cons first rest ih =>
      obtain ⟨hfirst, hrest⟩ := List.pairwise_cons.mp hordered
      by_cases hexpired : window.expired now first = true
      · rw [List.dropWhile_cons_of_pos hexpired]
        exact ih hrest
      · rw [List.dropWhile_cons_of_neg hexpired]
        intro time htime
        rcases List.mem_cons.mp htime with rfl | hlater
        · exact Bool.not_eq_true _ ▸ hexpired
        · by_contra hold
          exact hexpired (window.expired_mono le_rfl (hfirst time hlater)
            (Bool.not_eq_false _ ▸ hold))

/-- What a log lacks once it is pruned has expired, unless the log is full. -/
theorem Tracks.prune (htracks : window.Tracks capacity times log)
    (hordered : (times ++ [now]).Pairwise (· ≤ ·)) :
    ∃ forgotten, times = forgotten ++ window.prune log now ∧
      (capacity ≤ (window.prune log now).length ∨
        ∀ time ∈ forgotten, window.expired now time = true) := by
  obtain ⟨forgotten, rfl, hforgotten⟩ := htracks.forgotten
  obtain ⟨htimes, -, hnow⟩ := List.pairwise_append.mp hordered
  have hlate : ∀ time ∈ forgotten ++ log, time ≤ now := fun time htime =>
    hnow time htime now (List.mem_singleton_self now)
  refine ⟨forgotten ++ log.takeWhile (window.expired now), ?_, ?_⟩
  · rw [AgeLimit.prune, List.append_assoc, List.takeWhile_append_dropWhile]
  · cases htaken : log.takeWhile (window.expired now) with
    | nil =>
        have hkept : window.prune log now = log := by
          have hsplit := List.takeWhile_append_dropWhile (p := window.expired now) (l := log)
          rwa [htaken] at hsplit
        rw [hkept, List.append_nil]
        exact hforgotten.imp id fun hexpired => hexpired now hlate
    | cons first taken =>
        -- the pruned entries are at least as old as what was forgotten before
        have hexpired : ∀ time ∈ first :: taken, window.expired now time = true := by
          rw [← htaken]
          exact fun time htime => List.mem_takeWhile_imp htime
        have hfirst : first ∈ log := by
          refine (List.takeWhile_prefix (window.expired now)).subset ?_
          rw [htaken]
          exact List.mem_cons_self
        refine .inr fun time htime => ?_
        rcases List.mem_append.mp htime with hold | hnew
        · exact window.expired_mono le_rfl ((List.pairwise_append.mp htimes).2.2 time hold first
            hfirst) (hexpired first List.mem_cons_self)
        · exact hexpired time hnew

/-- One more event: the log keeps track, and is over a limit below its capacity exactly
when as many events are recent. -/
theorem Tracks.record {limit : ℕ} (htracks : window.Tracks (limit + 1) times log)
    (hordered : (times ++ [now]).Pairwise (· ≤ ·)) :
    window.Tracks (limit + 1) (times ++ [now])
        (append (limit + 1) (window.prune log now) now) ∧
      (limit < (append (limit + 1) (window.prune log now) now).length ↔
        limit < (window.recent now (times ++ [now])).length) := by
  obtain ⟨forgotten, hsplit, hforgotten⟩ := htracks.prune hordered
  have hlog : (window.prune log now).Pairwise (· ≤ ·) := by
    have htimes := (List.pairwise_append.mp hordered).1
    rw [hsplit] at htimes
    exact (List.pairwise_append.mp htimes).2.1
  have hfresh : window.recent now (window.prune log now ++ [now]) =
      window.prune log now ++ [now] := by
    refine List.filter_eq_self.mpr fun time htime => ?_
    rcases List.mem_append.mp htime with hold | hnew
    · obtain ⟨forgotten, rfl, -⟩ := htracks.forgotten
      have hlog' := (List.pairwise_append.mp (List.pairwise_append.mp hordered).1).2.1
      rw [fresh_of_mem_prune hlog' time hold]
      rfl
    · rw [List.mem_singleton.mp hnew, window.fresh_self]
      rfl
  have hrecent : (window.recent now (times ++ [now])).length =
      (window.recent now forgotten).length + ((window.prune log now).length + 1) := by
    rw [hsplit, List.append_assoc, recent, List.filter_append, ← recent, ← recent, hfresh,
      List.length_append, List.length_append, List.length_singleton]
  have hlength : (append (limit + 1) (window.prune log now) now).length =
      min ((window.prune log now).length + 1) (limit + 1) := by
    rw [append, List.length_drop, List.length_append, List.length_singleton]
    omega
  constructor
  · constructor
    case length_le => omega
    case forgotten =>
      refine ⟨forgotten ++ (window.prune log now ++ [now]).take
        ((window.prune log now).length + 1 - (limit + 1)), ?_, ?_⟩
      · rw [append, List.append_assoc, List.take_append_drop, hsplit, List.append_assoc]
      · by_cases hfull : limit + 1 ≤ (window.prune log now).length + 1
        · exact .inl (by omega)
        · refine .inr fun later hlater time htime => ?_
          rw [Nat.sub_eq_zero_of_le (by omega), List.take_zero, List.append_nil] at htime
          have hnow : now ≤ later := hlater now (by simp)
          exact window.expired_mono hnow le_rfl
            (hforgotten.resolve_left (by omega) time htime)
  · rw [hlength, hrecent]
    rcases hforgotten with hfull | hexpired
    · omega
    · have hnone : window.recent now forgotten = [] := by
        refine List.filter_eq_nil_iff.mpr fun time htime => ?_
        simp [hexpired time htime]
      rw [hnone, List.length_nil]
      omega

end AgeLimit

end SsfTransmitter.Core
