import SsfTransmitter.Security.SecretKeys

/-!
# Previews that withhold the secrets

A preview does not depend on the values under sensitive keys exactly when the cut comes
before the first of them or behind the document, or leaves an integer that the decoder
refuses to convert.
-/

namespace SsfTransmitter.Security

open SsfTransmitter.Core
open SsfTransmitter.Python
open SsfTransmitter.Webhook

/-! ## Numbers of a given length -/

/-- A number of `count` characters with a given first digit. -/
def numeral (digit : Char) : ℕ → List Char
  | 0 => []
  | 1 => [digit]
  | 2 => [digit, '0']
  | count + 3 => digit :: '.' :: List.replicate (count + 1) '0'

/-- The first digits of the numbers that take the place of secrets. -/
def leadingDigits : List Char :=
  ['1', '2']

theorem length_numeral (digit : Char) (count : ℕ) : (numeral digit count).length = count := by
  rcases count with _ | _ | _ | count
  · rfl
  · rfl
  · rfl
  · simp [numeral]

theorem takeDigits_replicate (count : ℕ) :
    takeDigits (List.replicate count '0') = (List.replicate count '0', []) := by
  rw [takeDigits, List.span_eq_takeWhile_dropWhile, List.takeWhile_replicate,
    List.dropWhile_replicate]
  rfl

theorem mem_numeral {digit char : Char} {count : ℕ} (hchar : char ∈ numeral digit count) :
    char = digit ∨ char = '.' ∨ char = '0' := by
  rcases count with _ | _ | _ | count
  · cases hchar
  · exact Or.inl (List.mem_singleton.mp hchar)
  · exact (List.mem_pair.mp hchar).imp_right Or.inr
  · rcases List.mem_cons.mp hchar with hdigit | hrest
    · exact Or.inl hdigit
    · rcases List.mem_cons.mp hrest with hpoint | hzero
      · exact Or.inr (Or.inl hpoint)
      · exact Or.inr (Or.inr (List.eq_of_mem_replicate hzero))

/-- No piece of such a number is an integer that is too long to convert. -/
theorem startsLongInteger_take_numeral {digit : Char} (hdigit : digit ∈ leadingDigits)
    (count length : ℕ) : startsLongInteger ((numeral digit count).take length) = false := by
  have hshort : ∀ rest, rest = [] ∨ rest = ['0'] ∨ (∃ zeros, rest = '.' :: zeros) →
      startsLongInteger (digit :: rest) = false := by
    intro rest hrest
    rcases hrest with rfl | rfl | ⟨zeros, rfl⟩
    · rcases List.mem_pair.mp hdigit with rfl | rfl <;> decide
    · rcases List.mem_pair.mp hdigit with rfl | rfl <;> decide
    · have hinteger : scanInteger (digit :: '.' :: zeros) = some ([digit], '.' :: zeros) := by
        rcases List.mem_pair.mp hdigit with rfl | rfl
        · rfl
        · rfl
      have hunsigned : startsLongInteger (digit :: '.' :: zeros) =
          startsLongInteger ('-' :: digit :: '.' :: zeros) := by
        apply startsLongInteger_eq
        intro rest heq
        rw [(List.cons.inj heq).1] at hdigit
        exact absurd hdigit (by decide)
      rw [hunsigned, startsLongInteger]
      dsimp only
      rw [hinteger]
      dsimp only
      rw [List.length_singleton, decide_eq_false (by decide), Bool.and_false]
  rcases length with _ | length
  · rw [List.take_zero]
    rfl
  · rcases count with _ | _ | _ | count
    · rfl
    · exact hshort _ (Or.inl (List.take_nil ..))
    · rcases length with _ | length
      · exact hshort _ (Or.inl rfl)
      · exact hshort _ (Or.inr (Or.inl (by rw [List.take_succ_cons, List.take_nil])))
    · rcases length with _ | length
      · exact hshort _ (Or.inl rfl)
      · exact hshort _ (Or.inr (Or.inr ⟨_, rfl⟩))

theorem isBreak_numeral {digit : Char} (hdigit : digit ∈ leadingDigits) {count : ℕ} :
    ∀ point ∈ (numeral digit count).map ofChar, isBreak point = false := by
  intro point hpoint
  obtain ⟨char, hchar, rfl⟩ := List.mem_map.mp hpoint
  rcases mem_numeral hchar with rfl | rfl | rfl
  · rcases List.mem_pair.mp hdigit with rfl | rfl <;> decide
  · decide
  · decide

theorem asciiChar_numeral {digit : Char} (hdigit : digit ∈ leadingDigits) (count : ℕ) :
    ((numeral digit count).map ofChar).map asciiChar = numeral digit count := by
  rw [List.map_map]
  refine (List.map_congr_left fun char hchar => ?_).trans (List.map_id _)
  rcases mem_numeral hchar with rfl | rfl | rfl
  · rcases List.mem_pair.mp hdigit with rfl | rfl <;> decide
  · decide
  · decide

section Runtime

variable [PyRuntime]

theorem scanScalar_numeral {digit : Char} (hdigit : digit ∈ leadingDigits) {count : ℕ}
    (hcount : 0 < count) :
    ∃ value, scanScalar (numeral digit count) = some (value, []) := by
  have hnumber : ∀ rest, scanScalar (digit :: rest) = scanUnsigned false (digit :: rest) := by
    intro rest
    rcases List.mem_pair.mp hdigit with rfl | rfl
    · rfl
    · rfl
  rcases count with _ | _ | _ | count
  · cases hcount
  · rw [numeral, hnumber]
    rcases List.mem_pair.mp hdigit with rfl | rfl
    · exact ⟨_, rfl⟩
    · exact ⟨_, rfl⟩
  · rw [numeral, hnumber]
    rcases List.mem_pair.mp hdigit with rfl | rfl
    · exact ⟨_, rfl⟩
    · exact ⟨_, rfl⟩
  · have hinteger : scanInteger (digit :: '.' :: List.replicate (count + 1) '0') =
        some ([digit], '.' :: List.replicate (count + 1) '0') := by
      rcases List.mem_pair.mp hdigit with rfl | rfl
      · rfl
      · rfl
    have hfraction : scanFraction ('.' :: List.replicate (count + 1) '0') =
        ('.' :: List.replicate (count + 1) '0', []) := by
      rw [scanFraction, takeDigits_replicate]
      rfl
    rw [numeral, hnumber, scanUnsigned, hinteger]
    simp only [Option.bind_eq_bind, Option.bind_some, hfraction]
    exact ⟨_, rfl⟩

theorem scanned_numeral {digit : Char} (hdigit : digit ∈ leadingDigits) {count : ℕ}
    (hcount : 0 < count) :
    scanScalar (((numeral digit count).map ofChar).map asciiChar) =
      some (((scanScalar (numeral digit count)).map Prod.fst).getD .null, []) := by
  obtain ⟨value, hscan⟩ := scanScalar_numeral hdigit hcount
  rw [asciiChar_numeral hdigit, hscan]
  rfl

def numeralScalar {digit : Char} (hdigit : digit ∈ leadingDigits) (count : ℕ)
    (hcount : 0 < count) : Scalar where
  text := (numeral digit count).map ofChar
  value := ((scanScalar (numeral digit count)).map Prod.fst).getD .null
  unbroken := isBreak_numeral hdigit
  scanned := scanned_numeral hdigit hcount

theorem length_text_pos (value : Layout .value) : 0 < value.text.length := by
  obtain ⟨point, rest, htext, -⟩ := value.exists_text_eq
  rw [htext]
  exact Nat.succ_pos _

def numberOf {digit : Char} (hdigit : digit ∈ leadingDigits) (value : Layout .value) :
    Layout .value :=
  .scalar (numeralScalar hdigit value.text.length (length_text_pos value))

theorem text_numberOf {digit : Char} (hdigit : digit ∈ leadingDigits) (value : Layout .value) :
    (numberOf hdigit value).text = (numeral digit value.text.length).map ofChar :=
  Layout.text_scalar _

theorem length_text_numberOf {digit : Char} (hdigit : digit ∈ leadingDigits)
    (value : Layout .value) : (numberOf hdigit value).text.length = value.text.length := by
  rw [text_numberOf, List.length_map, length_numeral]

theorem numberOf_congr {digit : Char} (hdigit : digit ∈ leadingDigits)
    {left right : Layout .value} (hlength : left.text.length = right.text.length) :
    numberOf hdigit left = numberOf hdigit right := by
  have hscalar : ∀ {first second : ℕ} (hfirst : 0 < first) (hsecond : 0 < second),
      first = second → numeralScalar hdigit first hfirst =
        numeralScalar hdigit second hsecond := by
    intro first second hfirst hsecond heq
    subst heq
    rfl
  exact congrArg Layout.scalar (hscalar _ _ hlength)

theorem cutsInteger_numberOf {digit : Char} (hdigit : digit ∈ leadingDigits)
    (value : Layout .value) (length : ℕ) :
    cutsInteger length (numberOf hdigit value).tokens = false := by
  have htext : (numeralScalar hdigit value.text.length (length_text_pos value)).text.map
      asciiChar = numeral digit value.text.length := asciiChar_numeral hdigit _
  rw [numberOf, Layout.tokens, cutsInteger, cutsInteger, Bool.or_false, Token.cutsInteger,
    List.map_take, htext]
  exact startsLongInteger_take_numeral hdigit _ length

/-- Numbers with a given first digit in the place of secrets. -/
def numbers {digit : Char} (hdigit : digit ∈ leadingDigits) : Filler where
  replace := numberOf hdigit
  length_text := length_text_numberOf hdigit
  depth_eq _ := rfl

/-! ## Documents with the same secrets -/

theorem length_text_fill (filler : Filler) {part : Part} (layout : Layout part) :
    (fill filler.replace layout).text.length = layout.text.length := by
  refine ((differInSecrets_fill filler.replace layout).length_eq ?_).symm
  intro left right hreplaced
  rw [hreplaced, filler.length_text]

theorem firstSecret_fill (filler : Filler) {part : Part} (layout : Layout part) :
    firstSecret (fill filler.replace layout) = firstSecret layout := by
  induction layout with
  | scalar => rfl
  | string => rfl
  | emptyList => rfl
  | list gap items ih => rw [fill, firstSecret, firstSecret, ih]
  | emptyDict => rfl
  | dict gap pairs ih => rw [fill, firstSecret, firstSecret, ih]
  | lastItem first gap ih => rw [fill, firstSecret, firstSecret, ih]
  | item first gap next rest ihFirst ihRest =>
      rw [fill, firstSecret, firstSecret, ihFirst, ihRest, length_text_fill]
  | field key gap next nested ih =>
      rw [fill, firstSecret, firstSecret]
      split_ifs
      · rfl
      · rw [ih]
  | lastField first gap ih => rw [fill, firstSecret, firstSecret, ih]
  | fields first gap next rest ihFirst ihRest =>
      rw [fill, firstSecret, firstSecret, ihFirst, ihRest, length_text_fill]

section Sanitized

variable (hmac : Hmac) (settings : LogSettings)

/-- `_sanitize` on what a part was read as. -/
def sanitizePart : (part : Part) → part.Result → part.Result
  | .value => sanitize hmac settings
  | .items => sanitizeItems hmac settings
  | .field => sanitizeField hmac settings
  | .fields => sanitizeFields hmac settings

theorem set_sanitizeFields (fields : Dict) (pair : PyStr × Json) :
    Dict.set (fields.map (sanitizeField hmac settings)) (sanitizeField hmac settings pair).1
        (sanitizeField hmac settings pair).2 =
      (Dict.set fields pair.1 pair.2).map (sanitizeField hmac settings) := by
  obtain ⟨key, value⟩ := pair
  have hkeys : (fields.map (sanitizeField hmac settings)).map Prod.fst =
      fields.map Prod.fst := by
    rw [List.map_map]
    exact List.map_congr_left fun field _ => sanitizeField_fst hmac settings field
  rw [Dict.set, Dict.set, hkeys, sanitizeField_fst]
  split_ifs
  · rw [List.map_map, List.map_map]
    apply List.map_congr_left
    intro field _
    rw [Function.comp_apply, Function.comp_apply, sanitizeField_fst]
    split_ifs
    · rfl
    · rfl
  · rw [List.map_append, List.map_singleton]
    rfl

/-- The dictionary of sanitized pairs is the sanitized dictionary. -/
theorem ofPairs_sanitizeFields (pairs : List (PyStr × Json)) :
    ofPairs (sanitizeFields hmac settings pairs) =
      sanitizeFields hmac settings (ofPairs pairs) := by
  have hfold : ∀ fields : Dict,
      (pairs.map (sanitizeField hmac settings)).foldl
          (fun fields pair => Dict.set fields pair.1 pair.2)
          (fields.map (sanitizeField hmac settings)) =
        (pairs.foldl (fun fields pair => Dict.set fields pair.1 pair.2) fields).map
          (sanitizeField hmac settings) := by
    intro fields
    induction pairs generalizing fields with
    | nil => rfl
    | cons pair rest ih =>
        rw [List.map_cons, List.foldl_cons, List.foldl_cons, set_sanitizeFields, ih]
  rw [sanitizeFields_eq_map, sanitizeFields_eq_map]
  exact hfold []

/-- A document that was read is sanitized without its secrets. -/
theorem sanitize_decode_fill (replace : Layout .value → Layout .value) {part : Part}
    (layout : Layout part) :
    sanitizePart hmac settings part (fill replace layout).decode =
      sanitizePart hmac settings part layout.decode := by
  induction layout with
  | scalar => rfl
  | string => rfl
  | emptyList => rfl
  | list gap items ih => exact congrArg Json.list ih
  | emptyDict => rfl
  | dict gap pairs ih =>
      have hpairs := congrArg (fun fields => Json.dict (ofPairs fields)) ih
      exact (congrArg Json.dict (ofPairs_sanitizeFields hmac settings _)).symm.trans
        (hpairs.trans (congrArg Json.dict (ofPairs_sanitizeFields hmac settings _)))
  | lastItem first gap ih => exact congrArg (fun item => [item]) ih
  | item first gap next rest ihFirst ihRest => exact congrArg₂ List.cons ihFirst ihRest
  | field key gap next nested ih =>
      simp only [sanitizePart, fill, Layout.decode, sanitizeField] at ih ⊢
      split_ifs
      · rfl
      · rw [ih]
  | lastField first gap ih => exact congrArg (fun pair => [pair]) ih
  | fields first gap next rest ihFirst ihRest => exact congrArg₂ List.cons ihFirst ihRest

end Sanitized

section Documents

variable {containers : ℕ} (document : Document containers)

/-- The document with other values under its sensitive keys. -/
def withSecrets (filler : Filler) : Document containers where
  lead := document.lead
  root := fill filler.replace document.root
  trail := document.trail
  nested := (depth_fill_le filler document.root).trans document.nested

/-- What is left of a document without its secrets: every value under a sensitive key
is the number of its length that starts with one. -/
def skeleton : Document containers :=
  withSecrets document (numbers (List.mem_cons_self : '1' ∈ leadingDigits))

/-- Where the first secret starts. -/
def secretStart : Option ℕ :=
  (firstSecret document.root).map (document.lead.val.length + ·)

theorem length_withSecrets (filler : Filler) :
    (withSecrets document filler).text.length = document.text.length := by
  simp only [Document.text, withSecrets, List.length_append, length_text_fill]

theorem closing_withSecrets (filler : Filler) :
    (withSecrets document filler).closing = document.closing := by
  rw [Document.closing, Document.closing, withSecrets, length_text_fill]

theorem secretStart_withSecrets (filler : Filler) :
    secretStart (withSecrets document filler) = secretStart document := by
  rw [secretStart, secretStart, withSecrets, firstSecret_fill]

/-- Up to the first secret a document shows none of them. -/
theorem take_withSecrets (filler : Filler) {length : ℕ}
    (hlength : ∀ start ∈ secretStart document, length ≤ start) :
    (withSecrets document filler).text.take length = document.text.take length := by
  rw [Document.text, Document.text, withSecrets]
  have hroot : ∀ count, (∀ start ∈ firstSecret document.root, count ≤ start) →
      (fill filler.replace document.root).text.take count = document.root.text.take count :=
    fun count hcount => ((differInSecrets_fill filler.replace document.root).take_eq hcount).symm
  simp only [List.take_append, length_text_fill]
  rw [hroot]
  intro start hstart
  have hle := hlength (document.lead.val.length + start) (Option.mem_map_of_mem _ hstart)
  omega

end Documents

/-! ## Redacted pieces -/

section Pieces

variable (hmac : Hmac) (settings : LogSettings)

omit [PyRuntime] in
theorem avoids_of_isBreak {point : CodePoint} (hpoint : isBreak point = true) :
    emailRegex.Avoids point := by
  obtain ⟨char, hchar, rfl⟩ := exists_of_isBreak hpoint
  have hall : breakChars.all (fun char => !isLocalPoint (ofChar char) && char != '@') = true := by
    decide
  have hclear := List.all_eq_true.mp hall char hchar
  rw [Bool.and_eq_true, Bool.not_eq_true', bne_iff_ne] at hclear
  exact avoids_emailRegex_iff.mpr ⟨hclear.1, fun heq => hclear.2 (ofChar_injective heq)⟩

omit [PyRuntime] in
theorem at_not_mem_numeral {digit : Char} (hdigit : digit ∈ leadingDigits) (count : ℕ) :
    ofChar '@' ∉ (numeral digit count).map ofChar := by
  intro hmem
  obtain ⟨char, hchar, hat⟩ := List.mem_map.mp hmem
  rw [ofChar_injective hat] at hchar
  rcases mem_numeral hchar with heq | heq | heq
  · rw [← heq] at hdigit
    exact absurd hdigit (by decide)
  · exact absurd heq (by decide)
  · exact absurd heq (by decide)

omit [PyRuntime] in
theorem head?_numeral (digit : Char) {count : ℕ} (hcount : 0 < count) :
    (numeral digit count).head? = some digit := by
  rcases count with _ | _ | _ | count
  · cases hcount
  · rfl
  · rfl
  · rfl

omit [PyRuntime] in
/-- Redaction leaves the first digit of a number that ends at a break. -/
theorem head?_redactText_numeral {digit : Char} (hdigit : digit ∈ leadingDigits)
    {width count : ℕ} (hwidth : 0 < width) (hcount : 0 < count) {rest : PyStr}
    (hrest : Delimited rest) :
    (redactText hmac settings (((numeral digit width).map ofChar ++ rest).take count)).head? =
      some (ofChar digit) := by
  have hpiece : redactText hmac settings (((numeral digit width).map ofChar).take count) =
      ((numeral digit width).map ofChar).take count :=
    Regex.sub_eq_self (clear_of_not_mem_at fun hmem =>
      at_not_mem_numeral hdigit width (List.mem_of_mem_take hmem))
  have hhead : (((numeral digit width).map ofChar).take count).head? = some (ofChar digit) := by
    rw [List.head?_take, if_neg hcount.ne', List.head?_map, head?_numeral digit hwidth]
    rfl
  rw [List.take_append]
  have htail := delimited_take hrest (count - ((numeral digit width).map ofChar).length)
  generalize rest.take (count - ((numeral digit width).map ofChar).length) = tail at htail ⊢
  rcases tail with _ | ⟨fence, more⟩
  · rw [List.append_nil, hpiece, hhead]
  · rw [redactText, Regex.sub_append_fence not_matches_nil
      (avoids_of_isBreak (delimited_cons.mp htail)), List.head?_append]
    rw [show Regex.sub emailRegex _ _ = _ from hpiece, hhead]
    rfl

end Pieces

/-! ## Previews -/

section Previews

variable {containers : ℕ} (document : Document containers)

theorem withSecrets_withSecrets {inner outer : Char} (hinner : inner ∈ leadingDigits)
    (houter : outer ∈ leadingDigits) :
    withSecrets (withSecrets document (numbers hinner)) (numbers houter) =
      withSecrets document (numbers houter) := by
  have hroot := fill_fill (numberOf houter) (numberOf hinner)
    (fun value => numberOf_congr houter (length_text_numberOf hinner value)) document.root
  simp only [withSecrets, numbers]
  congr 1

theorem endsScalar_of_secret {start : ℕ} (hstart : start ∈ secretStart document) :
    document.root.endsScalar = false := by
  obtain ⟨offset, hoffset, -⟩ := Option.mem_map.mp hstart
  cases hroot : document.root with
  | scalar word =>
      rw [hroot] at hoffset
      cases hoffset
  | string => rfl
  | emptyList => rfl
  | list => rfl
  | emptyDict => rfl
  | dict => rfl

/-- The text around the first secret, where a number was put in its place. -/
theorem exists_secret {digit : Char} (hdigit : digit ∈ leadingDigits) {start : ℕ}
    (hstart : start ∈ secretStart document) :
    ∃ (front : PyStr) (fence : CodePoint) (width : ℕ) (rest : PyStr),
      isBreak fence = true ∧ 0 < width ∧ Delimited rest ∧ front.length + 1 = start ∧
        (withSecrets document (numbers hdigit)).text =
          front ++ fence :: ((numeral digit width).map ofChar ++ rest) := by
  obtain ⟨offset, hoffset, rfl⟩ := Option.mem_map.mp hstart
  obtain ⟨front, fence, value, other, -, rest, hfence, hother, -, hrest, rfl, -, htext⟩ :=
    (differInSecrets_fill (numberOf hdigit) document.root).exists_split hoffset
  refine ⟨document.lead.val ++ front, fence, value.text.length, rest ++ document.trail.val,
    hfence, length_text_pos value, ?_, ?_, ?_⟩
  · cases rest with
    | nil =>
        have htrail := delimited_blank_append document.trail delimited_nil
        rwa [List.append_nil] at htrail
    | cons point rest => exact delimited_cons.mpr (delimited_cons.mp hrest)
  · rw [List.length_append, Nat.add_assoc]
  · have hroot : (fill (numberOf hdigit) document.root).text =
        front ++ fence :: (other.text ++ rest) := htext
    rw [hother, text_numberOf] at hroot
    simp only [Document.text, withSecrets, numbers, hroot, List.append_assoc, List.cons_append]

/-- How many characters `text[:limit]` keeps. -/
def cutLength (limit : ℤ) (length : ℕ) : ℕ :=
  if 0 ≤ limit then limit.toNat else length - limit.natAbs

omit [PyRuntime] in
theorem upTo_eq_take (limit : ℤ) (text : PyStr) :
    upTo limit text = text.take (cutLength limit text.length) := by
  rw [upTo, cutLength]
  split_ifs
  · rfl
  · rfl

variable (hmac : Hmac) (settings : LogSettings) (stack : StackLimits) (limit : ℤ)

theorem preview_congr {left right : PyStr} (heq : upTo limit left = upTo limit right) :
    safeResponseBodyText hmac settings stack limit left =
      safeResponseBodyText hmac settings stack limit right := by
  rw [safeResponseBodyText, safeResponseBodyText, heq]

/-- The preview of a document that was read. -/
theorem preview_of_closing_le {document : Document stack.containers}
    (hlength : document.closing ≤ cutLength limit document.text.length) :
    safeResponseBodyText hmac settings stack limit document.text =
      if stack.calls < (sanitize hmac settings document.root.decode).depth then
        .error .recursion
      else .ok (upTo limit (dumpsSorted (sanitize hmac settings document.root.decode))) := by
  rw [safeResponseBodyText, upTo_eq_take]
  dsimp only
  rw [document.loadsText_take_of_ge hlength]

/-- The preview of a document that was cut inside. -/
theorem preview_of_lt_closing {document : Document stack.containers}
    (hends : document.root.endsScalar = false)
    (hlength : cutLength limit document.text.length < document.closing) :
    safeResponseBodyText hmac settings stack limit document.text =
      if cutsInteger (cutLength limit document.text.length - document.lead.val.length)
          document.root.tokens then
        .error .intDigits
      else .ok (redactText hmac settings
        (document.text.take (cutLength limit document.text.length))) := by
  rw [safeResponseBodyText, upTo_eq_take]
  dsimp only
  rw [document.loadsText_take_of_lt hends hlength, cutError]
  split_ifs
  · rfl
  · rfl

end Previews

/-- What a cut at `length` keeps from a preview: it comes before the first secret or
behind the document, or the decoder gives up on an integer. -/
def Withheld {containers : ℕ} (document : Document containers) (length : ℕ) : Prop :=
  (∀ start ∈ secretStart document, length ≤ start) ∨ document.closing ≤ length ∨
    cutsInteger (length - document.lead.val.length) (skeleton document).root.tokens = true

section Withheld

variable (hmac : Hmac) (settings : LogSettings) {stack : StackLimits} (limit : ℤ)
  {document other : Document stack.containers}

theorem withheld_congr {length : ℕ} (hsame : skeleton other = skeleton document) :
    Withheld other length ↔ Withheld document length := by
  have hlead : other.lead = document.lead := (congrArg Document.lead hsame :)
  have hstart : secretStart other = secretStart document :=
    (secretStart_withSecrets other _).symm.trans
      ((congrArg secretStart hsame).trans (secretStart_withSecrets document _))
  have hclosing : other.closing = document.closing :=
    (closing_withSecrets other _).symm.trans
      ((congrArg Document.closing hsame).trans (closing_withSecrets document _))
  rw [Withheld, Withheld, hsame, hlead, hstart, hclosing]

theorem length_text_congr (hsame : skeleton other = skeleton document) :
    other.text.length = document.text.length :=
  (length_withSecrets other _).symm.trans
    ((congrArg (fun document => document.text.length) hsame).trans
      (length_withSecrets document _))

/-- An integer that is cut in one of two documents with the same skeleton is cut in the
skeleton. -/
theorem cutsInteger_withSecrets {filler : Filler}
    (hquiet : ∀ value length, cutsInteger length (filler.replace value).tokens = false)
    {length : ℕ}
    (hcut : cutsInteger length (withSecrets document filler).root.tokens = true) :
    cutsInteger length document.root.tokens = true := by
  refine (differInSecrets_fill filler.replace document.root).cutsInteger_left ?_ ?_ hcut
  · intro left right hright
    rw [hright, filler.length_text]
  · intro left right hright length
    rw [hright]
    exact hquiet left length

theorem lt_closing_of_cutsInteger {length : ℕ}
    (hcut : cutsInteger (length - document.lead.val.length) document.root.tokens = true) :
    length < document.closing := by
  by_contra hge
  rw [Document.closing, not_lt] at hge
  have hwhole : (textOf document.root.tokens).length ≤ length - document.lead.val.length :=
    Nat.le_sub_of_add_le' hge
  rw [cutsInteger_of_le hwhole] at hcut
  cases hcut

/-- A document whose secrets are withheld gets the preview of its skeleton. -/
theorem preview_skeleton
    (hwithheld : Withheld document (cutLength limit document.text.length)) :
    safeResponseBodyText hmac settings stack limit (skeleton document).text =
      safeResponseBodyText hmac settings stack limit document.text := by
  have hlength : (skeleton document).text.length = document.text.length :=
    length_withSecrets document _
  have hclosing : (skeleton document).closing = document.closing :=
    closing_withSecrets document _
  have hbefore : (∀ start ∈ secretStart document,
      cutLength limit document.text.length ≤ start) →
      safeResponseBodyText hmac settings stack limit (skeleton document).text =
        safeResponseBodyText hmac settings stack limit document.text := by
    intro hstart
    apply preview_congr
    rw [upTo_eq_take, upTo_eq_take, hlength]
    exact take_withSecrets document _ hstart
  rcases hwithheld with hstart | hend | hcut
  · exact hbefore hstart
  · rw [preview_of_closing_le hmac settings stack limit hend, preview_of_closing_le]
    · have hsame : sanitize hmac settings (skeleton document).root.decode =
          sanitize hmac settings document.root.decode :=
        sanitize_decode_fill hmac settings _ document.root
      rw [hsame]
    · rwa [hlength, hclosing]
  · rcases hsecret : secretStart document with _ | start
    · exact hbefore fun start hstart => by
        rw [hsecret] at hstart
        cases hstart
    · have hcutHere : cutsInteger (cutLength limit document.text.length -
          document.lead.val.length) document.root.tokens = true :=
        cutsInteger_withSecrets (fun value => cutsInteger_numberOf _ value) hcut
      have hsecretThere : start ∈ secretStart (skeleton document) :=
        (secretStart_withSecrets document _).trans hsecret
      rw [preview_of_lt_closing hmac settings stack limit
        (endsScalar_of_secret document hsecret) (lt_closing_of_cutsInteger hcutHere),
        if_pos hcutHere]
      have hcutThere : cutsInteger (cutLength limit (skeleton document).text.length -
          (skeleton document).lead.val.length) (skeleton document).root.tokens = true := by
        rw [hlength]
        exact hcut
      rw [preview_of_lt_closing hmac settings stack limit
        (endsScalar_of_secret (skeleton document) hsecretThere)
        (lt_closing_of_cutsInteger hcutThere), if_pos hcutThere]

/-- Redaction of a text that is cut behind its first secret keeps the first digit of the
number there. -/
theorem exists_redacted {digit : Char} (hdigit : digit ∈ leadingDigits) {start length : ℕ}
    (hstart : start ∈ secretStart document) (hafter : start < length) :
    ∃ (fence : CodePoint) (tail : PyStr), tail.head? = some (ofChar digit) ∧
      redactText hmac settings
          ((withSecrets document (numbers hdigit)).text.take length) =
        redactText hmac settings (document.text.take (start - 1)) ++ fence :: tail := by
  obtain ⟨front, fence, width, rest, hbreak, hwidth, hrest, rfl, htext⟩ :=
    exists_secret document hdigit hstart
  have hfront : document.text.take (front.length + 1 - 1) = front := by
    rw [← take_withSecrets document (numbers hdigit), htext, Nat.add_sub_cancel, List.take_left]
    intro start hfirst
    obtain rfl := Option.some.inj (hstart.symm.trans hfirst)
    exact Nat.sub_le ..
  obtain ⟨count, rfl⟩ := Nat.exists_eq_add_of_lt hafter
  have htake : (front ++ fence :: ((numeral digit width).map ofChar ++ rest)).take
      (front.length + 1 + count + 1) =
        front ++ fence :: ((numeral digit width).map ofChar ++ rest).take (count + 1) := by
    rw [List.take_append, List.take_of_length_le (by omega), ← List.take_succ_cons]
    congr 2
    omega
  refine ⟨fence, _, head?_redactText_numeral hmac settings hdigit hwidth
    (Nat.succ_pos count) hrest, ?_⟩
  rw [htext, htake, hfront, redactText, redactText, redactText,
    Regex.sub_append_fence not_matches_nil (avoids_of_isBreak hbreak)]

/-- The preview of a document that was cut behind its first secret. -/
theorem preview_withSecrets {digit : Char} (hdigit : digit ∈ leadingDigits) {start : ℕ}
    (hstart : start ∈ secretStart document)
    (hinside : cutLength limit document.text.length < document.closing)
    (hcut : cutsInteger (cutLength limit document.text.length - document.lead.val.length)
      (withSecrets document (numbers hdigit)).root.tokens = false) :
    safeResponseBodyText hmac settings stack limit
        (withSecrets document (numbers hdigit)).text =
      .ok (redactText hmac settings ((withSecrets document (numbers hdigit)).text.take
        (cutLength limit document.text.length))) := by
  have hsecret := (secretStart_withSecrets document (numbers hdigit)).trans hstart
  have hlt : cutLength limit (withSecrets document (numbers hdigit)).text.length <
      (withSecrets document (numbers hdigit)).closing := by
    rwa [length_withSecrets, closing_withSecrets]
  have hdocument := preview_of_lt_closing hmac settings stack limit
    (endsScalar_of_secret _ hsecret) hlt
  rw [length_withSecrets] at hdocument
  rw [hdocument]
  apply if_neg
  rw [Bool.not_eq_true]
  exact hcut

/-- Where the secrets are not withheld, two documents with the same skeleton get
different previews. -/
theorem previews_differ
    (hshown : ¬Withheld document (cutLength limit document.text.length)) :
    safeResponseBodyText hmac settings stack limit
        (withSecrets document (numbers (by decide : '2' ∈ leadingDigits))).text ≠
      safeResponseBodyText hmac settings stack limit (skeleton document).text := by
  simp only [Withheld, not_or, not_forall, not_le, Bool.not_eq_true] at hshown
  obtain ⟨⟨start, hstart, hafter⟩, hinside, hwhole⟩ := hshown
  have htwo : '2' ∈ leadingDigits := by decide
  have hone : '1' ∈ leadingDigits := by decide
  have hcut : cutsInteger (cutLength limit document.text.length - document.lead.val.length)
      (withSecrets document (numbers htwo)).root.tokens = false := by
    by_contra hcut
    rw [Bool.not_eq_false, ← withSecrets_withSecrets document hone htwo] at hcut
    have hskeleton := cutsInteger_withSecrets (cutsInteger_numberOf htwo) hcut
    exact Bool.false_ne_true (hwhole.symm.trans hskeleton)
  intro heq
  have hpreviews := (preview_withSecrets hmac settings limit htwo hstart hinside hcut).symm.trans
    (heq.trans (preview_withSecrets hmac settings limit hone hstart hinside hwhole))
  obtain ⟨fence, tail, hhead, hleft⟩ := exists_redacted hmac settings htwo hstart hafter
  obtain ⟨other, rest, hother, hright⟩ := exists_redacted hmac settings hone hstart hafter
  have htexts := List.append_cancel_left
    (hleft.symm.trans ((Except.ok.inj hpreviews).trans hright))
  rw [(List.cons.inj htexts).2, hother] at hhead
  exact absurd (ofChar_injective (Option.some.inj hhead)) (by decide)

/-- A preview depends on the values under sensitive keys only where it does not
withhold them, in every document that `json.loads` reads. -/
theorem preview_eq_iff :
    (∀ text value, loadsText stack.containers text = .ok value ↔
      ∃ laid : Document stack.containers, laid.text = text ∧ laid.root.decode = value) ∧
    ((∀ other : Document stack.containers, skeleton other = skeleton document →
      safeResponseBodyText hmac settings stack limit other.text =
        safeResponseBodyText hmac settings stack limit document.text) ↔
      Withheld document (cutLength limit document.text.length)) := by
  refine ⟨fun _ _ => Document.loadsText_eq_ok_iff, ?_⟩
  constructor
  · intro hsame
    by_contra hshown
    apply previews_differ hmac settings limit hshown
    exact (hsame _ (withSecrets_withSecrets document _ _)).trans
      (hsame _ (withSecrets_withSecrets document _ _)).symm
  · intro hwithheld other hother
    have hthere : Withheld other (cutLength limit other.text.length) := by
      rw [length_text_congr hother]
      exact (withheld_congr hother).mpr hwithheld
    rw [← preview_skeleton hmac settings limit hthere, hother,
      preview_skeleton hmac settings limit hwithheld]

end Withheld

end Runtime

end SsfTransmitter.Security
