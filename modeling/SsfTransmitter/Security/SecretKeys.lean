import SsfTransmitter.Python.JsonDocument
import SsfTransmitter.Security.EmailRedaction

/-!
# Secrets in previews

The values under sensitive keys are redacted in a document that was read.  A body is
cut before it is read, and one that was cut inside is shown as it is.
-/

namespace SsfTransmitter.Security

open SsfTransmitter.Core
open SsfTransmitter.Python
open SsfTransmitter.Webhook

section Secrets

variable [PyRuntime]

/-! ## Other values under sensitive keys -/

/-- The document with other values under its sensitive keys. -/
def fill (replace : Layout .value → Layout .value) : {part : Part} → Layout part → Layout part
  | _, .scalar word => .scalar word
  | _, .string literal => .string literal
  | _, .emptyList gap => .emptyList gap
  | _, .list gap items => .list gap (fill replace items)
  | _, .emptyDict gap => .emptyDict gap
  | _, .dict gap pairs => .dict gap (fill replace pairs)
  | _, .lastItem first gap => .lastItem (fill replace first) gap
  | _, .item first gap next rest => .item (fill replace first) gap next (fill replace rest)
  | _, .field key gap next nested =>
    .field key gap next (if isSensitive key.value then replace nested else fill replace nested)
  | _, .lastField first gap => .lastField (fill replace first) gap
  | _, .fields first gap next rest => .fields (fill replace first) gap next (fill replace rest)

/-- Where the first value under a sensitive key starts. -/
def firstSecret : {part : Part} → Layout part → Option ℕ
  | _, .scalar _ => none
  | _, .string _ => none
  | _, .emptyList _ => none
  | _, .list gap items => (firstSecret items).map (gap.val.length + 1 + ·)
  | _, .emptyDict _ => none
  | _, .dict gap pairs => (firstSecret pairs).map (gap.val.length + 1 + ·)
  | _, .lastItem first _ => firstSecret first
  | _, .item first gap next rest =>
    (firstSecret first).or ((firstSecret rest).map
      (first.text.length + (gap.val.length + (next.val.length + 1)) + ·))
  | _, .field key gap next nested =>
    if isSensitive key.value then
      some (key.text.length + gap.val.length + (next.val.length + 1))
    else
      (firstSecret nested).map (key.text.length + gap.val.length + (next.val.length + 1) + ·)
  | _, .lastField first _ => firstSecret first
  | _, .fields first gap next rest =>
    (firstSecret first).or ((firstSecret rest).map
      (first.text.length + (gap.val.length + (next.val.length + 1)) + ·))

/-- A replacement that keeps the length of a value and nests nothing. -/
structure Filler where
  replace : Layout .value → Layout .value
  length_text : ∀ value, (replace value).text.length = value.text.length
  depth_eq : ∀ value, (replace value).depth = 0

theorem depth_fill_le (filler : Filler) {part : Part} (layout : Layout part) :
    (fill filler.replace layout).depth ≤ layout.depth := by
  induction layout with
  | scalar => exact le_rfl
  | string => exact le_rfl
  | emptyList => exact le_rfl
  | list gap items ih => exact Nat.succ_le_succ ih
  | emptyDict => exact le_rfl
  | dict gap pairs ih => exact Nat.succ_le_succ ih
  | lastItem first gap ih => exact ih
  | item first gap next rest ihFirst ihRest => exact max_le_max ihFirst ihRest
  | field key gap next nested ih =>
      rw [fill]
      split_ifs
      · exact (filler.depth_eq nested).le.trans (Nat.zero_le _)
      · exact ih
  | lastField first gap ih => exact ih
  | fields first gap next rest ihFirst ihRest => exact max_le_max ihFirst ihRest

theorem fill_fill (outer inner : Layout .value → Layout .value)
    (hsame : ∀ value, outer (inner value) = outer value) {part : Part} (layout : Layout part) :
    fill outer (fill inner layout) = fill outer layout := by
  induction layout with
  | scalar => rfl
  | string => rfl
  | emptyList => rfl
  | list gap items ih => rw [fill, fill, fill, ih]
  | emptyDict => rfl
  | dict gap pairs ih => rw [fill, fill, fill, ih]
  | lastItem first gap ih => rw [fill, fill, fill, ih]
  | item first gap next rest ihFirst ihRest => rw [fill, fill, fill, ihFirst, ihRest]
  | field key gap next nested ih =>
      rw [fill, fill, fill]
      split_ifs
      · rw [hsame]
      · rw [ih]
  | lastField first gap ih => rw [fill, fill, fill, ih]
  | fields first gap next rest ihFirst ihRest => rw [fill, fill, fill, ihFirst, ihRest]

/-! ## Two documents at once -/

/-- Tokens that are the same but for values between breaks, and where the first of
these starts. -/
inductive DifferInSecrets (related : Layout .value → Layout .value → Prop) :
    List Token → List Token → Option ℕ → Prop where
  | nil : DifferInSecrets related [] [] none
  | same (token : Token) {left right : List Token} {first : Option ℕ}
      (hrest : DifferInSecrets related left right first) :
      DifferInSecrets related (token :: left) (token :: right)
        (first.map (token.text.length + ·))
  | secret {front : PyStr} {fence : CodePoint} (hfence : isBreak fence = true)
      {leftValue rightValue : Layout .value} (hrelated : related leftValue rightValue)
      {left right : List Token} {first : Option ℕ} (hleft : Delimited (textOf left))
      (hright : Delimited (textOf right)) (hrest : DifferInSecrets related left right first) :
      DifferInSecrets related (.mark (front ++ [fence]) :: (leftValue.tokens ++ left))
        (.mark (front ++ [fence]) :: (rightValue.tokens ++ right)) (some (front.length + 1))

namespace DifferInSecrets

variable {related : Layout .value → Layout .value → Prop} {left right : List Token}
  {first : Option ℕ}

theorem append (hfirst : DifferInSecrets related left right first)
    {leftRest rightRest : List Token} {second : Option ℕ}
    (hsecond : DifferInSecrets related leftRest rightRest second)
    (hleft : Delimited (textOf leftRest)) (hright : Delimited (textOf rightRest)) :
    DifferInSecrets related (left ++ leftRest) (right ++ rightRest)
      (first.or (second.map ((textOf left).length + ·))) := by
  have hjoin : ∀ {text rest : PyStr}, Delimited text → Delimited rest →
      Delimited (text ++ rest) := by
    intro text rest htext hrest
    cases text with
    | nil => exact hrest
    | cons point text => exact delimited_cons.mpr (delimited_cons.mp htext)
  induction hfirst with
  | nil =>
      have hoffset : (second.map (([] : PyStr).length + ·)) = second := by
        simp
      rw [show (textOf ([] : List Token)) = [] from rfl, hoffset]
      exact hsecond
  | @same token left right first _ ih =>
      have hoffset : ((first.map (token.text.length + ·)).or
          (second.map ((textOf (token :: left)).length + ·))) =
            (first.or (second.map ((textOf left).length + ·))).map (token.text.length + ·) := by
        rw [Layout.textOf_cons, List.length_append]
        cases first with
        | some start => rfl
        | none =>
            rw [Option.map_none, Option.none_or, Option.none_or, Option.map_map]
            congr 1
            funext start
            exact Nat.add_assoc ..
      rw [hoffset]
      exact .same token ih
  | @secret front fence hfence leftValue rightValue hrelated left right first hleftEnd
      hrightEnd _ ih =>
      rw [Option.some_or, List.cons_append, List.cons_append, List.append_assoc,
        List.append_assoc]
      refine .secret hfence hrelated ?_ ?_ ih
      · rw [Layout.textOf_append]
        exact hjoin hleftEnd hleft
      · rw [Layout.textOf_append]
        exact hjoin hrightEnd hright

theorem length_eq (hdiffer : DifferInSecrets related left right first)
    (hlength : ∀ {leftValue rightValue}, related leftValue rightValue →
      leftValue.text.length = rightValue.text.length) :
    (textOf left).length = (textOf right).length := by
  induction hdiffer with
  | nil => rfl
  | same token _ ih =>
      rw [Layout.textOf_cons, Layout.textOf_cons, List.length_append, List.length_append, ih]
  | secret _ hrelated _ _ _ ih =>
      have hvalue := hlength hrelated
      rw [Layout.text, Layout.text] at hvalue
      simp only [Layout.textOf_cons, Layout.textOf_append, List.length_append, ih, hvalue]

/-- Up to the first secret the texts agree. -/
theorem take_eq (hdiffer : DifferInSecrets related left right first) {length : ℕ}
    (hlength : ∀ start ∈ first, length ≤ start) :
    (textOf left).take length = (textOf right).take length := by
  induction hdiffer generalizing length with
  | nil => rfl
  | @same token left right first _ ih =>
      rw [Layout.textOf_cons, Layout.textOf_cons, List.take_append, List.take_append, ih]
      intro start hstart
      have hle := hlength (token.text.length + start) (Option.mem_map_of_mem _ hstart)
      omega
  | @secret front fence _ leftValue rightValue _ left right _ _ _ _ _ =>
      have hle : length ≤ (front ++ [fence]).length := by
        rw [List.length_append, List.length_singleton]
        exact hlength _ rfl
      rw [Layout.textOf_cons, Layout.textOf_cons]
      exact (List.take_append_of_le_length hle).trans
        (List.take_append_of_le_length hle).symm

/-- An integer that is cut on the right, outside the secrets, is cut on the left. -/
theorem cutsInteger_left (hdiffer : DifferInSecrets related left right first)
    (hlength : ∀ {leftValue rightValue}, related leftValue rightValue →
      leftValue.text.length = rightValue.text.length)
    (hquiet : ∀ {leftValue rightValue}, related leftValue rightValue →
      ∀ length, cutsInteger length rightValue.tokens = false)
    {length : ℕ} (hcut : cutsInteger length right = true) :
    cutsInteger length left = true := by
  induction hdiffer generalizing length with
  | nil => exact hcut
  | same token _ ih =>
      rw [cutsInteger, Bool.or_eq_true] at hcut ⊢
      exact hcut.imp_right ih
  | secret _ hrelated _ _ _ ih =>
      have hvalue := hlength hrelated
      rw [Layout.text, Layout.text] at hvalue
      rw [cutsInteger, cutsInteger_append, hquiet hrelated, Bool.false_or, ← hvalue] at hcut
      rw [cutsInteger, cutsInteger_append, Bool.or_eq_true, Bool.or_eq_true]
      rw [Bool.or_eq_true] at hcut
      exact hcut.imp_right fun hrest => Or.inr (ih hrest)

/-- At the first secret the texts go apart. -/
theorem exists_split (hdiffer : DifferInSecrets related left right first) {start : ℕ}
    (hstart : start ∈ first) :
    ∃ (front : PyStr) (fence : CodePoint) (leftValue rightValue : Layout .value)
      (leftRest rightRest : PyStr), isBreak fence = true ∧ related leftValue rightValue ∧
        Delimited leftRest ∧ Delimited rightRest ∧ front.length + 1 = start ∧
        textOf left = front ++ fence :: (leftValue.text ++ leftRest) ∧
        textOf right = front ++ fence :: (rightValue.text ++ rightRest) := by
  induction hdiffer generalizing start with
  | nil => cases hstart
  | @same token left right first _ ih =>
      obtain ⟨inner, hinner, rfl⟩ := Option.mem_map.mp hstart
      obtain ⟨front, fence, leftValue, rightValue, leftRest, rightRest, hfence, hrelated,
        hleft, hright, rfl, hleftText, hrightText⟩ := ih hinner
      refine ⟨token.text ++ front, fence, leftValue, rightValue, leftRest, rightRest, hfence,
        hrelated, hleft, hright, ?_, ?_, ?_⟩
      · rw [List.length_append, Nat.add_assoc]
      · rw [Layout.textOf_cons, hleftText, List.append_assoc]
      · rw [Layout.textOf_cons, hrightText, List.append_assoc]
  | @secret front fence hfence leftValue rightValue hrelated left right _ hleft hright _ _ =>
      obtain rfl := Option.some.inj hstart
      refine ⟨front, fence, leftValue, rightValue, textOf left, textOf right, hfence, hrelated,
        hleft, hright, rfl, ?_, ?_⟩
      · simp [Layout.textOf_cons, Layout.textOf_append, Token.text, Layout.text]
      · simp [Layout.textOf_cons, Layout.textOf_append, Token.text, Layout.text]

end DifferInSecrets

omit [PyRuntime] in
/-- A value is preceded by white space or a colon. -/
theorem exists_fence (next : Gap) : ∃ front fence,
    ofChar ':' :: next.val = front ++ [fence] ∧ isBreak fence = true := by
  have hne : ofChar ':' :: next.val ≠ [] := List.cons_ne_nil _ _
  refine ⟨_, _, (List.dropLast_append_getLast hne).symm, ?_⟩
  rcases List.mem_cons.mp (List.getLast_mem hne) with hcolon | hspace
  · rw [hcolon]
    decide
  · exact isBreak_of_isSpacePoint (List.all_eq_true.mp next.property _ hspace)

theorem differInSecrets_item {first second : List Token} {start : Option ℕ}
    {replace : Layout .value → Layout .value} {part : Part} {rest : Layout part}
    (hfirst : DifferInSecrets (fun value other => other = replace value) first second start)
    (hrest : DifferInSecrets (fun value other => other = replace value) rest.tokens
      (fill replace rest).tokens (firstSecret rest)) (gap next : Gap) :
    DifferInSecrets (fun value other => other = replace value)
      (first ++ .mark (gap.val ++ ofChar ',' :: next.val) :: rest.tokens)
      (second ++ .mark (gap.val ++ ofChar ',' :: next.val) :: (fill replace rest).tokens)
      (start.or ((firstSecret rest).map
        ((textOf first).length + (gap.val.length + (next.val.length + 1)) + ·))) := by
  have hbreak : isBreak (ofChar ',') = true := by decide
  have hdelimited : ∀ tokens, Delimited
      (textOf (.mark (gap.val ++ ofChar ',' :: next.val) :: tokens)) := by
    intro tokens
    rw [Layout.textOf_cons, Token.text, List.append_assoc]
    exact delimited_gap gap hbreak _
  have happend := hfirst.append (.same (.mark (gap.val ++ ofChar ',' :: next.val)) hrest)
    (hdelimited _) (hdelimited _)
  have hoffset : ((firstSecret rest).map
      ((Token.mark (gap.val ++ ofChar ',' :: next.val)).text.length + ·)).map
        ((textOf first).length + ·) = (firstSecret rest).map
          ((textOf first).length + (gap.val.length + (next.val.length + 1)) + ·) := by
    rw [Option.map_map]
    congr 1
    funext offset
    simp only [Function.comp_apply, Token.text, List.length_append, List.length_cons]
    omega
  rwa [hoffset] at happend

theorem differInSecrets_last {first second : List Token} {start : Option ℕ}
    {related : Layout .value → Layout .value → Prop}
    (hfirst : DifferInSecrets related first second start) (gap : Gap) {close : Char}
    (hclose : isBreak (ofChar close) = true) :
    DifferInSecrets related (first ++ [.mark (gap.val ++ [ofChar close])])
      (second ++ [.mark (gap.val ++ [ofChar close])]) start := by
  have hdelimited : Delimited (textOf [.mark (gap.val ++ [ofChar close])]) := by
    rw [Layout.textOf_cons, Token.text, List.append_assoc]
    exact delimited_gap gap hclose _
  have happend := hfirst.append (.same (.mark (gap.val ++ [ofChar close])) .nil)
    hdelimited hdelimited
  rwa [Option.map_none, Option.map_none, Option.or_none] at happend

theorem differInSecrets_secret (replace : Layout .value → Layout .value) {front : PyStr}
    {fence : CodePoint} (hfence : isBreak fence = true) (value : Layout .value) :
    DifferInSecrets (fun value other => other = replace value)
      (.mark (front ++ [fence]) :: value.tokens)
      (.mark (front ++ [fence]) :: (replace value).tokens) (some (front.length + 1)) := by
  have hnil : Delimited (textOf []) := delimited_nil
  have hvalue : replace value = replace value := rfl
  have hsecret := @DifferInSecrets.secret _ (fun value other => other = replace value)
    front fence hfence value (replace value) hvalue [] [] none hnil hnil .nil
  rwa [List.append_nil, List.append_nil] at hsecret

/-- The texts of a layout before and after its secrets were replaced. -/
theorem differInSecrets_fill (replace : Layout .value → Layout .value) {part : Part}
    (layout : Layout part) :
    DifferInSecrets (fun value other => other = replace value) layout.tokens
      (fill replace layout).tokens (firstSecret layout) := by
  induction layout with
  | scalar word => exact .same (.word word) .nil
  | string literal => exact .same (.mark literal.text) .nil
  | emptyList gap => exact .same _ .nil
  | list gap items ih => exact .same _ ih
  | emptyDict gap => exact .same _ .nil
  | dict gap pairs ih => exact .same _ ih
  | lastItem first gap ih => exact differInSecrets_last ih gap (by decide)
  | item first gap next rest ihFirst ihRest => exact differInSecrets_item ihFirst ihRest gap next
  | field key gap next nested ih =>
      rw [fill, firstSecret]
      split_ifs
      · obtain ⟨front, fence, hfence, hbreak⟩ := exists_fence next
        have hmark : key.text ++ gap.val ++ ofChar ':' :: next.val =
            (key.text ++ gap.val ++ front) ++ [fence] := by
          rw [hfence, ← List.append_assoc]
        have hlength := congrArg List.length hmark
        rw [List.length_append, List.length_append, List.length_append, List.length_cons,
          List.length_singleton] at hlength
        rw [Layout.tokens, Layout.tokens, hlength, hmark]
        exact differInSecrets_secret replace hbreak nested
      · have hlength : (key.text ++ gap.val ++ ofChar ':' :: next.val).length =
            key.text.length + gap.val.length + (next.val.length + 1) := by
          rw [List.length_append, List.length_append, List.length_cons]
        rw [← hlength]
        exact .same _ ih
  | lastField first gap ih => exact differInSecrets_last ih gap (by decide)
  | fields first gap next rest ihFirst ihRest =>
      exact differInSecrets_item ihFirst ihRest gap next

end Secrets

end SsfTransmitter.Security
