import Mathlib.Data.List.Basic

/-!
# Accounting over an event log

An event of a log may admit items, and may excuse items admitted before it.  A
log is accounted for when every item that it admits is still live or is excused
by an event after its admission.
-/

namespace SsfTransmitter.Core

variable {Event Item : Type*} {admits excuses excuses' : Event → Item → Prop}
  {live live' : Item → Prop} {log : List Event}

/-- Every admitted item is live, or excused after its admission. -/
def Accounted (admits excuses : Event → Item → Prop) (live : Item → Prop)
    (log : List Event) : Prop :=
  ∀ before event after, log = before ++ event :: after →
    ∀ item, admits event item → live item ∨ ∃ later ∈ after, excuses later item

namespace Accounted

theorem nil : Accounted admits excuses live [] := by
  intro before event after hlog
  simp at hlog

/-- Without a new event only live items may change, and none may be lost. -/
theorem mono (haccounted : Accounted admits excuses live log)
    (hlive : ∀ item, live item → live' item) :
    Accounted admits excuses live' log := by
  intro before event after hlog item hadmits
  exact (haccounted before event after hlog item hadmits).imp_left (hlive item)

theorem imp_excuses (haccounted : Accounted admits excuses live log)
    (hexcuses : ∀ event item, excuses event item → excuses' event item) :
    Accounted admits excuses' live log := by
  intro before event after hlog item hadmits
  refine (haccounted before event after hlog item hadmits).imp_right ?_
  rintro ⟨later, hmem, hexcused⟩
  exact ⟨later, hmem, hexcuses later item hexcused⟩

/-- Two accounts with the same excuses hold together. -/
theorem and (hleft : Accounted admits excuses live log)
    (hright : Accounted admits excuses live' log) :
    Accounted admits excuses (fun item => live item ∧ live' item) log := by
  intro before event after hlog item hadmits
  rcases hleft before event after hlog item hadmits with hlive | hexcused
  · exact (hright before event after hlog item hadmits).imp_left fun hlive' =>
      ⟨hlive, hlive'⟩
  · exact Or.inr hexcused

/-- A new event must leave what it admits live, and excuse what it takes. -/
theorem snoc {event : Event} (haccounted : Accounted admits excuses live log)
    (hadmitted : ∀ item, admits event item → live' item)
    (hkept : ∀ item, live item → live' item ∨ excuses event item) :
    Accounted admits excuses live' (log ++ [event]) := by
  intro before first after hlog item hadmits
  rcases List.eq_nil_or_concat' after with rfl | ⟨init, last, rfl⟩
  · obtain ⟨-, hlast⟩ := List.append_inj' hlog rfl
    obtain rfl : event = first := by simpa using hlast
    exact Or.inl (hadmitted item hadmits)
  · rw [← List.cons_append, ← List.append_assoc] at hlog
    obtain ⟨hinit, hlast⟩ := List.append_inj' hlog rfl
    obtain rfl : event = last := by simpa using hlast
    rcases haccounted before first init hinit item hadmits with
      hlive | ⟨later, hmem, hexcused⟩
    · rcases hkept item hlive with hlive' | hexcused
      · exact Or.inl hlive'
      · exact Or.inr ⟨event, by simp, hexcused⟩
    · exact Or.inr ⟨later, by simp [hmem], hexcused⟩

/-- An event that admits nothing leaves the account of an unchanged state. -/
theorem snoc_of_not_admits {event : Event}
    (haccounted : Accounted admits excuses live log)
    (hadmits : ∀ item, ¬admits event item)
    (hkept : ∀ item, live item → live' item ∨ excuses event item) :
    Accounted admits excuses live' (log ++ [event]) :=
  haccounted.snoc (fun item hitem => absurd hitem (hadmits item)) hkept

end Accounted

end SsfTransmitter.Core
