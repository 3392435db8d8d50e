import Mathlib.Data.List.Infix
import Mathlib.Tactic

/-!
# Regular expressions with bounded repetition

Matching in the order of a backtracking engine, the texts that an expression
matches, and substitution of the leftmost matches.  A substitution whose
replacements are sealed by symbols outside the expression leaves no match behind.
-/

namespace SsfTransmitter.Core

/-- Expressions whose repetitions are greedy and bounded.  The bodies of repetitions
are meant to match no empty text. -/
inductive Regex (Symbol : Type*) where
  | one (accepts : Symbol → Bool)
  | seq (first second : Regex Symbol)
  | repeated (body : Regex Symbol) (least most : ℕ)

namespace Regex

variable {Symbol : Type*}

/-! ## Matching -/

/-- What can follow `least` to `most` matches, the longest repetitions first. -/
def times (ends : List Symbol → List (List Symbol)) : ℕ → ℕ → List Symbol → List (List Symbol)
  | least, 0, text => if least = 0 then [text] else []
  | least, most + 1, text =>
    (ends text).flatMap (times ends (least - 1) most) ++ if least = 0 then [text] else []

/-- What can follow a match at the start of a text, in the order of preference. -/
def ends : Regex Symbol → List Symbol → List (List Symbol)
  | one _, [] => []
  | one accepts, symbol :: rest => if accepts symbol then [rest] else []
  | seq first second, text => (ends first text).flatMap (ends second)
  | repeated body least most, text => times (ends body) least most text

/-- The texts that an expression matches as a whole. -/
inductive Matches : Regex Symbol → List Symbol → Prop where
  | one {accepts : Symbol → Bool} {symbol : Symbol} :
      accepts symbol = true → Matches (one accepts) [symbol]
  | seq {first second : Regex Symbol} {word rest : List Symbol} :
      Matches first word → Matches second rest → Matches (seq first second) (word ++ rest)
  | done {body : Regex Symbol} {most : ℕ} : Matches (repeated body 0 most) []
  | again {body : Regex Symbol} {least most : ℕ} {word rest : List Symbol} :
      Matches body word → Matches (repeated body (least - 1) most) rest →
      Matches (repeated body least (most + 1)) (word ++ rest)

theorem mem_times_iff {body : Regex Symbol}
    (hbody : ∀ text rest, rest ∈ ends body text ↔
      ∃ word, text = word ++ rest ∧ Matches body word)
    {least most : ℕ} {text rest : List Symbol} :
    rest ∈ times (ends body) least most text ↔
      ∃ word, text = word ++ rest ∧ Matches (repeated body least most) word := by
  induction most generalizing least text with
  | zero =>
      rw [times]
      constructor
      · intro hmem
        split_ifs at hmem with hleast
        · obtain rfl := List.mem_singleton.mp hmem
          subst hleast
          exact ⟨[], rfl, .done⟩
        · cases hmem
      · intro hword
        obtain ⟨word, rfl, hmatches⟩ := hword
        cases hmatches
        simp
  | succ most ih =>
      rw [times, List.mem_append, List.mem_flatMap]
      constructor
      · intro hmem
        rcases hmem with hagain | hdone
        · obtain ⟨middle, hmiddle, hrest⟩ := hagain
          obtain ⟨first, rfl, hfirst⟩ := (hbody text middle).mp hmiddle
          obtain ⟨second, rfl, hsecond⟩ := ih.mp hrest
          exact ⟨first ++ second, (List.append_assoc ..).symm, .again hfirst hsecond⟩
        · split_ifs at hdone with hleast
          · obtain rfl := List.mem_singleton.mp hdone
            subst hleast
            exact ⟨[], rfl, .done⟩
          · cases hdone
      · intro hword
        obtain ⟨word, rfl, hmatches⟩ := hword
        cases hmatches with
        | done => exact Or.inr (by simp)
        | @again _ _ _ first second hfirst hsecond =>
            rw [List.append_assoc]
            exact Or.inl ⟨second ++ rest, (hbody _ _).mpr ⟨first, rfl, hfirst⟩,
              ih.mpr ⟨second, rfl, hsecond⟩⟩

/-- The matcher finds exactly the matches at the start of a text. -/
theorem mem_ends_iff {regex : Regex Symbol} {text rest : List Symbol} :
    rest ∈ ends regex text ↔ ∃ word, text = word ++ rest ∧ Matches regex word := by
  induction regex generalizing text rest with
  | one accepts =>
      constructor
      · intro hmem
        cases text with
        | nil => cases hmem
        | cons symbol after =>
            rw [ends] at hmem
            split_ifs at hmem with haccepts
            · obtain rfl := List.mem_singleton.mp hmem
              exact ⟨[symbol], rfl, .one haccepts⟩
            · cases hmem
      · intro hword
        obtain ⟨word, rfl, hmatches⟩ := hword
        cases hmatches with
        | one haccepts => simp [ends, haccepts]
  | seq first second ihFirst ihSecond =>
      rw [ends, List.mem_flatMap]
      constructor
      · intro hmem
        obtain ⟨middle, hmiddle, hrest⟩ := hmem
        obtain ⟨word, rfl, hword⟩ := ihFirst.mp hmiddle
        obtain ⟨other, rfl, hother⟩ := ihSecond.mp hrest
        exact ⟨word ++ other, (List.append_assoc ..).symm, .seq hword hother⟩
      · intro hword
        obtain ⟨word, rfl, hmatches⟩ := hword
        cases hmatches with
        | @seq _ _ word other hword hother =>
            exact ⟨other ++ rest, ihFirst.mpr ⟨word, List.append_assoc .., hword⟩,
              ihSecond.mpr ⟨other, rfl, hother⟩⟩
  | repeated body least most ih =>
      rw [ends]
      exact mem_times_iff fun _ _ => ih

/-! ## Symbols outside an expression -/

/-- No class of the expression accepts the symbol. -/
def Avoids : Regex Symbol → Symbol → Prop
  | one accepts, symbol => accepts symbol = false
  | seq first second, symbol => Avoids first symbol ∧ Avoids second symbol
  | repeated body _ _, symbol => Avoids body symbol

theorem not_mem_of_avoids {regex : Regex Symbol} {word : List Symbol} {symbol : Symbol}
    (hword : Matches regex word) (havoids : Avoids regex symbol) : symbol ∉ word := by
  induction hword with
  | one haccepts =>
      intro hmem
      obtain rfl := List.mem_singleton.mp hmem
      rw [Avoids, haccepts] at havoids
      cases havoids
  | seq _ _ ihFirst ihSecond =>
      intro hmem
      rcases List.mem_append.mp hmem with hfirst | hsecond
      · exact ihFirst havoids.1 hfirst
      · exact ihSecond havoids.2 hsecond
  | done => exact List.not_mem_nil
  | again _ _ ihFirst ihRest =>
      intro hmem
      rcases List.mem_append.mp hmem with hfirst | hrest
      · exact ihFirst havoids hfirst
      · exact ihRest havoids hrest

theorem times_append {ends : List Symbol → List (List Symbol)} {fence : Symbol}
    {tail : List Symbol}
    (hends : ∀ text, ends (text ++ fence :: tail) = (ends text).map (· ++ fence :: tail))
    (least most : ℕ) (text : List Symbol) :
    times ends least most (text ++ fence :: tail) =
      (times ends least most text).map (· ++ fence :: tail) := by
  induction most generalizing least text with
  | zero =>
      rw [times, times]
      split_ifs <;> rfl
  | succ most ih =>
      rw [times, times, hends, List.map_append, List.flatMap_map, List.map_flatMap]
      congr 1
      · exact List.flatMap_congr fun after _ => ih (least - 1) after
      · split_ifs <;> rfl

/-- No match reaches over a symbol outside the expression. -/
theorem ends_append {regex : Regex Symbol} {fence : Symbol} (havoids : Avoids regex fence)
    (text tail : List Symbol) :
    ends regex (text ++ fence :: tail) = (ends regex text).map (· ++ fence :: tail) := by
  induction regex generalizing text with
  | one accepts =>
      cases text with
      | nil =>
          have hrejects : accepts fence = false := havoids
          simp [ends, hrejects]
      | cons symbol rest =>
          rw [List.cons_append, ends, ends]
          split_ifs <;> rfl
  | seq first second ihFirst ihSecond =>
      rw [ends, ends, ihFirst havoids.1, List.flatMap_map, List.map_flatMap]
      exact List.flatMap_congr fun after _ => ihSecond havoids.2 after
  | repeated body least most ih =>
      rw [ends, ends]
      exact times_append (fun text => ih havoids text) least most text

/-! ## Substitution -/

/-- Replace the leftmost matches, from left to right.  A match of the empty text is
passed over. -/
def sub (regex : Regex Symbol) (replace : List Symbol → List Symbol) :
    List Symbol → List Symbol
  | [] => []
  | symbol :: rest =>
    match (ends regex (symbol :: rest)).head? with
    | none => symbol :: sub regex replace rest
    | some after =>
      if after.length < rest.length + 1 then
        replace ((symbol :: rest).take (rest.length + 1 - after.length)) ++
          sub regex replace after
      else symbol :: sub regex replace rest
termination_by text => text.length

/-- No part of the text is matched. -/
def Clear (regex : Regex Symbol) (text : List Symbol) : Prop :=
  ∀ word, word <:+: text → ¬Matches regex word

theorem Clear.of_infix {regex : Regex Symbol} {text part : List Symbol}
    (hclear : Clear regex text) (hpart : part <:+: text) : Clear regex part :=
  fun word hword => hclear word (hword.trans hpart)

/-- A part that avoids a symbol lies on one side of it. -/
theorem infix_of_not_mem {fence : Symbol} {front tail word : List Symbol}
    (hinside : word <:+: front ++ fence :: tail) (hfence : fence ∉ word) :
    word <:+: front ∨ word <:+: tail := by
  obtain ⟨before, after, heq⟩ := hinside
  rcases List.append_eq_append_iff.mp heq with hleft | hright
  · obtain ⟨gap, rfl, -⟩ := hleft
    exact Or.inl ⟨before, gap, rfl⟩
  · obtain ⟨reach, hword, hafter⟩ := hright
    rcases reach with _ | ⟨symbol, reach⟩
    · rw [List.append_nil] at hword
      exact Or.inl ⟨before, [], by rw [List.append_nil, hword]⟩
    · obtain ⟨rfl, rfl⟩ := List.cons.inj hafter
      rcases List.append_eq_append_iff.mp hword with hcross | hbeyond
      · obtain ⟨gap, -, rfl⟩ := hcross
        exact absurd (List.mem_append_right gap List.mem_cons_self) hfence
      · obtain ⟨reach', -, hbeyond⟩ := hbeyond
        rcases reach' with _ | ⟨symbol, reach'⟩
        · rw [List.nil_append] at hbeyond
          exact absurd (hbeyond ▸ List.mem_cons_self) hfence
        · obtain ⟨-, rfl⟩ := List.cons.inj hbeyond
          exact Or.inr ⟨reach', after, rfl⟩

theorem clear_append_fence {regex : Regex Symbol} {fence : Symbol} {front tail : List Symbol}
    (havoids : Avoids regex fence) (hfront : Clear regex front) (htail : Clear regex tail) :
    Clear regex (front ++ fence :: tail) := by
  intro word hinside hmatches
  rcases infix_of_not_mem hinside (not_mem_of_avoids hmatches havoids) with hleft | hright
  · exact hfront word hleft hmatches
  · exact htail word hright hmatches

/-- No match starts in `word`, where `rest` follows it. -/
def Untouched (regex : Regex Symbol) (word rest : List Symbol) : Prop :=
  ∀ inside, inside <:+ word → inside ≠ [] →
    ∀ matched, matched <+: inside ++ rest → ¬Matches regex matched

theorem untouched_nil {regex : Regex Symbol} {rest : List Symbol} : Untouched regex [] rest :=
  fun _ hinside hnonempty => absurd (List.suffix_nil.mp hinside) hnonempty

theorem untouched_cons {regex : Regex Symbol} {symbol : Symbol} {word rest : List Symbol} :
    Untouched regex (symbol :: word) rest ↔
      (∀ matched, matched <+: symbol :: (word ++ rest) → ¬Matches regex matched) ∧
        Untouched regex word rest := by
  simp only [Untouched, List.suffix_cons_iff]
  constructor
  · intro huntouched
    exact ⟨huntouched _ (.inl rfl) (List.cons_ne_nil _ _),
      fun inside hinside => huntouched inside (.inr hinside)⟩
  · rintro ⟨hstart, hlater⟩ inside (rfl | hinside)
    · exact fun _ => hstart
    · exact hlater inside hinside

/-- A symbol that is not in a word lies behind it. -/
theorem append_eq_append_fence {fence : Symbol} {word text front tail : List Symbol}
    (heq : word ++ text = front ++ fence :: tail) (hfence : fence ∉ word) :
    ∃ rest, front = word ++ rest ∧ text = rest ++ fence :: tail := by
  rcases List.append_eq_append_iff.mp heq with hbehind | hinside
  · exact hbehind
  · obtain ⟨reach, rfl, hreach⟩ := hinside
    rcases reach with _ | ⟨symbol, reach⟩
    · exact ⟨[], by simp, by simpa using hreach.symm⟩
    · obtain ⟨rfl, -⟩ := List.cons.inj hreach
      exact absurd (List.mem_append_right _ List.mem_cons_self) hfence

/-- A replacement text: without a match, between two symbols that no match has. -/
structure Sealed (regex : Regex Symbol) (text : List Symbol) : Prop where
  exists_eq : ∃ first inner last, text = first :: inner ++ [last] ∧
    Avoids regex first ∧ Avoids regex last ∧ Clear regex inner

section Sub

variable {regex : Regex Symbol} {replace : List Symbol → List Symbol}

theorem ends_eq_nil_of_head? {text : List Symbol} (hhead : (ends regex text).head? = none) :
    ¬∃ word, word <+: text ∧ Matches regex word := by
  intro hword
  obtain ⟨word, ⟨rest, rfl⟩, hmatches⟩ := hword
  have hmem : rest ∈ ends regex (word ++ rest) := mem_ends_iff.mpr ⟨word, rfl, hmatches⟩
  rw [List.head?_eq_none_iff.mp hhead] at hmem
  cases hmem

/-- What is replaced is matched. -/
theorem matches_take {symbol : Symbol} {rest after : List Symbol}
    (hhead : (ends regex (symbol :: rest)).head? = some after) :
    Matches regex ((symbol :: rest).take (rest.length + 1 - after.length)) ∧
      after <:+ symbol :: rest := by
  obtain ⟨word, hword, hmatches⟩ := mem_ends_iff.mp (List.mem_of_mem_head? hhead)
  have hlength : rest.length + 1 - after.length = word.length := by
    have hlengths := congrArg List.length hword
    rw [List.length_cons, List.length_append] at hlengths
    omega
  constructor
  · rw [hlength, hword, List.take_left]
    exact hmatches
  · exact ⟨word, hword.symm⟩

/-- Where the expression matches no empty text, a match shortens the text. -/
theorem length_lt_of_head? (hempty : ¬Matches regex []) {symbol : Symbol}
    {rest after : List Symbol} (hhead : (ends regex (symbol :: rest)).head? = some after) :
    after.length < rest.length + 1 := by
  obtain ⟨word, hword, hmatches⟩ := mem_ends_iff.mp (List.mem_of_mem_head? hhead)
  have hlengths := congrArg List.length hword
  rw [List.length_cons, List.length_append] at hlengths
  rcases word with _ | ⟨first, word⟩
  · exact absurd hmatches hempty
  · rw [List.length_cons] at hlengths
    omega

/-- What no match starts in is kept. -/
theorem sub_append_of_untouched {word rest : List Symbol} (hword : Untouched regex word rest) :
    sub regex replace (word ++ rest) = word ++ sub regex replace rest := by
  induction word with
  | nil => rfl
  | cons symbol word ih =>
      obtain ⟨hstart, hlater⟩ := untouched_cons.mp hword
      have hnone : (ends regex (symbol :: (word ++ rest))).head? = none := by
        by_contra hsome
        obtain ⟨after, hafter⟩ := Option.ne_none_iff_exists'.mp hsome
        exact hstart _ (List.take_prefix ..) (matches_take hafter).1
      rw [List.cons_append, sub, hnone]
      exact congrArg (symbol :: ·) (ih hlater)

/-- A prefix of the result of symbols that matches consist of is one of the text, in which
no match starts. -/
theorem prefix_sub_iff (hempty : ¬Matches regex [])
    (hreplace : ∀ word, Matches regex word → Sealed regex (replace word))
    {word text : List Symbol} (hword : ∀ symbol ∈ word, ¬Avoids regex symbol) :
    word <+: sub regex replace text ↔ ∃ rest, text = word ++ rest ∧ Untouched regex word rest := by
  constructor
  · intro hinitial
    fun_induction sub regex replace text generalizing word with
    | case1 =>
        obtain rfl := List.prefix_nil.mp hinitial
        exact ⟨[], rfl, untouched_nil⟩
    | case2 symbol rest hhead ih =>
        rcases List.prefix_cons_iff.mp hinitial with rfl | hcons
        · exact ⟨_, rfl, untouched_nil⟩
        · obtain ⟨tail, rfl, htail⟩ := hcons
          obtain ⟨after, rfl, hafter⟩ := ih
            (fun other hother => hword other (List.mem_cons_of_mem _ hother)) htail
          refine ⟨after, rfl, untouched_cons.mpr ⟨fun matched hmatched hmatches => ?_, hafter⟩⟩
          exact ends_eq_nil_of_head? hhead ⟨matched, hmatched, hmatches⟩
    | case3 symbol rest after hhead _ _ =>
        obtain ⟨first, inner, last, heq, hfirst, -, -⟩ :=
          (hreplace _ (matches_take hhead).1).exists_eq
        rw [heq, List.cons_append, List.cons_append] at hinitial
        rcases List.prefix_cons_iff.mp hinitial with rfl | hcons
        · exact ⟨_, rfl, untouched_nil⟩
        · obtain ⟨tail, rfl, -⟩ := hcons
          exact absurd hfirst (hword first List.mem_cons_self)
    | case4 symbol rest after hhead hlength _ =>
        exact absurd (length_lt_of_head? hempty hhead) hlength
  · rintro ⟨rest, rfl, huntouched⟩
    rw [sub_append_of_untouched huntouched]
    exact List.prefix_append ..

/-- Substitution of sealed texts leaves no match behind. -/
theorem clear_sub (hempty : ¬Matches regex [])
    (hreplace : ∀ word, Matches regex word → Sealed regex (replace word))
    (text : List Symbol) : Clear regex (sub regex replace text) := by
  have hnil : Clear regex ([] : List Symbol) := by
    intro word hinside hmatches
    rw [List.infix_nil.mp hinside] at hmatches
    exact hempty hmatches
  fun_induction sub regex replace text with
  | case1 => exact hnil
  | case2 symbol rest hhead ih =>
      intro word hinside hmatches
      rcases List.infix_cons_iff.mp hinside with hinitial | hlater
      · rcases List.prefix_cons_iff.mp hinitial with rfl | hcons
        · exact hempty hmatches
        · obtain ⟨tail, rfl, htail⟩ := hcons
          -- a match over unreplaced text would have been found there
          obtain ⟨after, rfl, -⟩ := (prefix_sub_iff hempty hreplace
            fun other hother havoids =>
              not_mem_of_avoids hmatches havoids (List.mem_cons_of_mem _ hother)).mp htail
          exact ends_eq_nil_of_head? hhead
            ⟨_, List.cons_prefix_cons.mpr ⟨rfl, List.prefix_append ..⟩, hmatches⟩
      · exact ih word hlater hmatches
  | case3 symbol rest after hhead _ ih =>
      obtain ⟨first, inner, last, heq, hfirst, hlast, hinner⟩ :=
        (hreplace _ (matches_take hhead).1).exists_eq
      have hrest : Clear regex (inner ++ last :: sub regex replace after) :=
        clear_append_fence hlast hinner ih
      have hall := clear_append_fence hfirst hnil hrest
      rw [heq]
      simpa using hall
  | case4 symbol rest after hhead hlength _ =>
      exact absurd (length_lt_of_head? hempty hhead) hlength

/-- Substitution changes nothing in a text without a match. -/
theorem sub_eq_self {text : List Symbol} (hclear : Clear regex text) :
    sub regex replace text = text := by
  fun_induction sub regex replace text with
  | case1 => rfl
  | case2 symbol rest _ ih => rw [ih (hclear.of_infix (List.suffix_cons symbol rest).isInfix)]
  | case3 symbol rest after hhead _ _ =>
      exact absurd (matches_take hhead).1 (hclear _ (List.take_prefix ..).isInfix)
  | case4 symbol rest _ _ _ ih =>
      rw [ih (hclear.of_infix (List.suffix_cons symbol rest).isInfix)]

/-- Substitution goes on by itself on both sides of a symbol outside the expression. -/
theorem sub_append_fence (hempty : ¬Matches regex []) {fence : Symbol}
    (havoids : Avoids regex fence) (text tail : List Symbol) :
    sub regex replace (text ++ fence :: tail) =
      sub regex replace text ++ fence :: sub regex replace tail := by
  fun_induction sub regex replace text with
  | case1 =>
      have hends : ends regex (fence :: tail) = [] := by
        have hnone : ends regex ([] : List Symbol) = [] := by
          rw [List.eq_nil_iff_forall_not_mem]
          intro rest hrest
          obtain ⟨word, hword, hmatches⟩ := mem_ends_iff.mp hrest
          rw [(List.append_eq_nil_iff.mp hword.symm).1] at hmatches
          exact hempty hmatches
        have happend := ends_append havoids [] tail
        rwa [hnone, List.map_nil, List.nil_append] at happend
      rw [List.nil_append, List.nil_append, sub, hends]
      rfl
  | case2 symbol rest hhead ih =>
      have hnone : (ends regex (symbol :: (rest ++ fence :: tail))).head? = none := by
        rw [← List.cons_append, ends_append havoids, List.head?_map, hhead]
        rfl
      rw [List.cons_append, sub, hnone]
      dsimp only
      rw [ih, List.cons_append]
  | case3 symbol rest after hhead hlength ih =>
      have hsome : (ends regex (symbol :: (rest ++ fence :: tail))).head? =
          some (after ++ fence :: tail) := by
        rw [← List.cons_append, ends_append havoids, List.head?_map, hhead]
        rfl
      have hlonger : (after ++ fence :: tail).length < (rest ++ fence :: tail).length + 1 := by
        rw [List.length_append, List.length_append]
        omega
      have hcount : (rest ++ fence :: tail).length + 1 - (after ++ fence :: tail).length =
          rest.length + 1 - after.length := by
        rw [List.length_append, List.length_append]
        omega
      rw [List.cons_append, sub, hsome]
      dsimp only
      rw [if_pos hlonger, hcount, ← List.cons_append, List.take_append_of_le_length, ih,
        List.append_assoc]
      rw [List.length_cons]
      omega
  | case4 symbol rest after hhead hlength _ =>
      exact absurd (length_lt_of_head? hempty hhead) hlength

/-- A symbol outside the expression and the replacements is one of the text. -/
theorem sub_eq_append_fence (hempty : ¬Matches regex []) {fence : Symbol}
    (havoids : Avoids regex fence) (hreplace : ∀ word, Matches regex word → fence ∉ replace word)
    {text front tail : List Symbol} (hsub : sub regex replace text = front ++ fence :: tail) :
    ∃ left right, text = left ++ fence :: right ∧ sub regex replace left = front ∧
      sub regex replace right = tail := by
  have hright : ∃ left right, text = left ++ fence :: right ∧ sub regex replace right = tail := by
    fun_induction sub regex replace text generalizing front with
    | case1 => simp at hsub
    | case2 symbol rest _ ih =>
        rcases front with _ | ⟨first, front⟩
        · obtain ⟨rfl, hrest⟩ := List.cons.inj hsub
          exact ⟨[], rest, rfl, hrest⟩
        · obtain ⟨left, right, rfl, hright⟩ := ih (List.cons.inj hsub).2
          exact ⟨symbol :: left, right, rfl, hright⟩
    | case3 symbol rest after hhead _ ih =>
        obtain ⟨hmatches, word, hword⟩ := matches_take hhead
        obtain ⟨behind, -, hafter⟩ := append_eq_append_fence hsub (hreplace _ hmatches)
        obtain ⟨left, right, rfl, hright⟩ := ih hafter
        exact ⟨word ++ left, right, by rw [← hword, List.append_assoc], hright⟩
    | case4 symbol rest after hhead hlength _ =>
        exact absurd (length_lt_of_head? hempty hhead) hlength
  obtain ⟨left, right, rfl, rfl⟩ := hright
  rw [sub_append_fence hempty havoids] at hsub
  exact ⟨left, right, rfl, List.append_cancel_right hsub, rfl⟩

end Sub

/-! ## Classes -/

/-- What a repeated class matches. -/
theorem matches_repeated_one_iff {accepts : Symbol → Bool} {least most : ℕ}
    {word : List Symbol} :
    Matches (repeated (one accepts) least most) word ↔
      least ≤ word.length ∧ word.length ≤ most ∧ ∀ symbol ∈ word, accepts symbol = true := by
  constructor
  · intro hmatches
    generalize hregex : repeated (one accepts) least most = regex at hmatches
    induction hmatches generalizing least most with
    | one _ | seq _ _ _ _ => cases hregex
    | done =>
        obtain ⟨-, rfl, -⟩ := Regex.repeated.inj hregex
        simp
    | again hfirst _ _ ih =>
        obtain ⟨rfl, rfl, rfl⟩ := Regex.repeated.inj hregex
        cases hfirst with
        | one haccepts =>
            obtain ⟨hleast, hmost, hall⟩ := ih rfl
            simp only [List.singleton_append, List.length_cons, List.forall_mem_cons]
            exact ⟨by omega, by omega, haccepts, hall⟩
  · rintro ⟨hleast, hmost, hall⟩
    induction word generalizing least most with
    | nil =>
        obtain rfl := Nat.le_zero.mp hleast
        exact .done
    | cons symbol word ih =>
        obtain ⟨most, rfl⟩ := Nat.exists_eq_add_of_lt (Nat.lt_of_lt_of_le (Nat.succ_pos _) hmost)
        rw [List.length_cons] at hleast hmost
        obtain ⟨haccepts, hrest⟩ := List.forall_mem_cons.mp hall
        rw [Nat.zero_add] at hmost ⊢
        have hagain := ih (Nat.sub_le_of_le_add hleast) (Nat.le_of_succ_le_succ hmost) hrest
        exact .again (.one haccepts) hagain

end Regex

end SsfTransmitter.Core
