import SsfTransmitter.Python.Quote

/-!
# The tokens of the decoder

White space and punctuation end every constant and number.  What the decoder leaves
over is given here as a text of its own.
-/

namespace SsfTransmitter.Python

/-! ## Breaks -/

/-- White space and punctuation: no constant and no number holds one of them. -/
def breakChars : List Char :=
  [' ', '\t', '\n', '\r', '"', '[', ']', '\x7b', '\x7d', ',', ':']

def isBreak (point : CodePoint) : Bool :=
  breakChars.any fun char => point == ofChar char

/-- Nothing follows, or a break. -/
def Delimited (text : PyStr) : Prop :=
  ∀ point ∈ text.head?, isBreak point = true

theorem delimited_nil : Delimited [] :=
  fun _ hpoint => by cases hpoint

theorem delimited_cons {point : CodePoint} {rest : PyStr} :
    Delimited (point :: rest) ↔ isBreak point = true := by
  simp [Delimited]

theorem exists_of_isBreak {point : CodePoint} (hpoint : isBreak point = true) :
    ∃ char ∈ breakChars, point = ofChar char := by
  simpa only [isBreak, List.any_eq_true, beq_iff_eq] using hpoint

theorem isBreak_of_isSpacePoint {point : CodePoint} (hpoint : isSpacePoint point = true) :
    isBreak point = true := by
  simp only [isSpacePoint, Bool.or_eq_true, beq_iff_eq] at hpoint
  rcases hpoint with ((hspace | htab) | hline) | hreturn
  · rw [show point = ofChar ' ' from Fin.ext hspace]
    decide
  · rw [show point = ofChar '\t' from Fin.ext htab]
    decide
  · rw [show point = ofChar '\n' from Fin.ext hline]
    decide
  · rw [show point = ofChar '\r' from Fin.ext hreturn]
    decide

theorem asciiChar_mem_breakChars {point : CodePoint} (hpoint : isBreak point = true) :
    asciiChar point ∈ breakChars := by
  obtain ⟨char, hchar, rfl⟩ := exists_of_isBreak hpoint
  have hascii : ∀ char ∈ breakChars, char.toNat < 128 := by
    intro char hchar
    simp only [breakChars, List.mem_cons, List.not_mem_nil, or_false] at hchar
    rcases hchar with rfl | rfl | rfl | rfl | rfl | rfl | rfl | rfl | rfl | rfl | rfl <;> decide
  rw [asciiChar_ofChar (hascii char hchar)]
  exact hchar

/-! ## Scalars up to a break -/

/-- No class of the number expressions has the character. -/
structure EndsScalar (char : Char) : Prop where
  digit : char.isDigit = false
  point : char ≠ '.'
  marker : char ≠ 'e' ∧ char ≠ 'E'
  sign : char ≠ '-' ∧ char ≠ '+'
  letter : ∀ word ∈ ["null", "true", "false", "NaN", "Infinity", "-Infinity"],
    char ∉ word.toList

theorem endsScalar_of_mem {char : Char} (hchar : char ∈ breakChars) : EndsScalar char := by
  simp only [breakChars, List.mem_cons, List.not_mem_nil, or_false] at hchar
  rcases hchar with rfl | rfl | rfl | rfl | rfl | rfl | rfl | rfl | rfl | rfl | rfl <;>
    exact ⟨by decide, by decide, by decide, by decide, by decide⟩

/-- The sign of an exponent, before the rest of it. -/
def IsSign (sign unsigned : List Char) : Prop :=
  (sign = ['-'] ∨ sign = ['+']) ∨
    (sign = [] ∧ ∀ char ∈ unsigned.head?, char ≠ '-' ∧ char ≠ '+')

theorem exists_isSign (text : List Char) :
    ∃ sign unsigned, IsSign sign unsigned ∧ text = sign ++ unsigned := by
  cases text with
  | nil => exact ⟨[], [], Or.inr ⟨rfl, fun _ hchar => by cases hchar⟩, rfl⟩
  | cons char rest =>
      by_cases hminus : char = '-'
      · exact ⟨['-'], rest, Or.inl (Or.inl rfl), by rw [hminus]; rfl⟩
      · by_cases hplus : char = '+'
        · exact ⟨['+'], rest, Or.inl (Or.inr rfl), by rw [hplus]; rfl⟩
        · exact ⟨[], char :: rest,
            Or.inr ⟨rfl, fun _ hchar => Option.some.inj hchar ▸ ⟨hminus, hplus⟩⟩, rfl⟩

theorem scanExponent_marked {marker : Char} (hmarker : ¬(marker ≠ 'e' ∧ marker ≠ 'E'))
    {sign unsigned : List Char} (hsign : IsSign sign unsigned) :
    scanExponent (marker :: (sign ++ unsigned)) =
      if (takeDigits unsigned).1.isEmpty then ([], marker :: (sign ++ unsigned))
      else (marker :: sign ++ (takeDigits unsigned).1, (takeDigits unsigned).2) := by
  rw [scanExponent.eq_def]
  dsimp only
  rw [if_neg hmarker]
  rcases hsign with (rfl | rfl) | ⟨rfl, hhead⟩
  · rfl
  · rfl
  · rw [List.nil_append]
    split
    · exact absurd rfl (hhead _ rfl).1
    · exact absurd rfl (hhead _ rfl).2
    · rfl

/-- A number after its sign. -/
def scanUnsigned [runtime : PyRuntime] (negative : Bool) (text : List Char) :
    Option (Json × List Char) := do
  let (digits, rest) ← scanInteger text
  let (fraction, rest) := scanFraction rest
  let (exponent, rest) := scanExponent rest
  if fraction.isEmpty && exponent.isEmpty then
    if 4300 < digits.length then none
    else
      let magnitude := digits.foldl
        (fun value digit => 10 * value + (digit.toNat - '0'.toNat)) 0
      some (.int (if negative then -(magnitude : ℤ) else magnitude), rest)
  else
    let sign := if negative then ['-'] else []
    some (.float (runtime.floatRepr
      ((sign ++ digits ++ fraction ++ exponent).map ofChar)), rest)

theorem scanNumber_eq [PyRuntime] {text : List Char} (hminus : ∀ rest, text ≠ '-' :: rest) :
    scanNumber text = scanUnsigned false text := by
  rw [scanNumber.eq_def]
  split
  next negative unsigned heq =>
    split at heq
    · next rest => exact absurd rfl (hminus rest)
    · obtain ⟨rfl, rfl⟩ := Prod.mk.inj heq
      rfl

section Fence

variable {fence : Char} (hfence : EndsScalar fence) (tail : List Char)
include hfence

theorem takeDigits_append (text : List Char) :
    takeDigits (text ++ fence :: tail) =
      ((takeDigits text).1, (takeDigits text).2 ++ fence :: tail) := by
  simp only [takeDigits, List.span_eq_takeWhile_dropWhile]
  induction text with
  | nil =>
      rw [List.nil_append, List.takeWhile_cons_of_neg, List.dropWhile_cons_of_neg]
      · rfl
      · simp [hfence.digit]
      · simp [hfence.digit]
  | cons char rest ih =>
      rw [List.cons_append]
      by_cases hdigit : char.isDigit = true
      · simp only [List.takeWhile_cons_of_pos hdigit, List.dropWhile_cons_of_pos hdigit]
        obtain ⟨htake, hdrop⟩ := Prod.mk.inj ih
        rw [htake, hdrop]
      · simp only [List.takeWhile_cons_of_neg hdigit, List.dropWhile_cons_of_neg hdigit]
        rfl

theorem scanInteger_append (text : List Char) :
    scanInteger (text ++ fence :: tail) =
      (scanInteger text).map fun scanned => (scanned.1, scanned.2 ++ fence :: tail) := by
  have hdigits : ∀ text : List Char, (∀ rest, text ≠ '0' :: rest) →
      scanInteger text =
        if (takeDigits text).1.isEmpty then none else some (takeDigits text) := by
    intro text hzero
    rw [scanInteger.eq_def]
    split
    · next rest => exact absurd rfl (hzero rest)
    · rfl
  by_cases hzero : ∃ rest, text = '0' :: rest
  · obtain ⟨rest, rfl⟩ := hzero
    rfl
  · rw [not_exists] at hzero
    have hlonger : ∀ rest, text ++ fence :: tail ≠ '0' :: rest := by
      intro rest heq
      cases text with
      | nil =>
          have hdigit := hfence.digit
          rw [(List.cons.inj heq).1] at hdigit
          exact absurd hdigit (by decide)
      | cons char after =>
          rw [(List.cons.inj heq).1] at hzero
          exact hzero after rfl
    rw [hdigits text hzero, hdigits _ hlonger, takeDigits_append hfence]
    split_ifs <;> rfl

theorem scanFraction_append (text : List Char) :
    scanFraction (text ++ fence :: tail) =
      ((scanFraction text).1, (scanFraction text).2 ++ fence :: tail) := by
  cases text with
  | nil =>
      rw [List.nil_append, scanFraction.eq_def]
      split
      · next heq => exact absurd (List.cons.inj heq).1 hfence.point
      · rfl
  | cons char rest =>
      by_cases hpoint : char = '.'
      · subst hpoint
        rw [List.cons_append, scanFraction, scanFraction, takeDigits_append hfence]
        dsimp only
        split_ifs <;> rfl
      · have habsent : ∀ after, scanFraction (char :: after) = ([], char :: after) := by
          intro after
          rw [scanFraction.eq_def]
          split
          · next heq => exact absurd (List.cons.inj heq).1 hpoint
          · rfl
        rw [List.cons_append, habsent, habsent, List.cons_append]

theorem scanExponent_append (text : List Char) :
    scanExponent (text ++ fence :: tail) =
      ((scanExponent text).1, (scanExponent text).2 ++ fence :: tail) := by
  cases text with
  | nil =>
      rw [List.nil_append, scanExponent.eq_def]
      exact if_pos hfence.marker
  | cons marker rest =>
      by_cases hmarker : marker ≠ 'e' ∧ marker ≠ 'E'
      · rw [List.cons_append, scanExponent.eq_def, scanExponent.eq_def]
        dsimp only
        rw [if_pos hmarker, if_pos hmarker]
        rfl
      · obtain ⟨sign, unsigned, hsign, rfl⟩ := exists_isSign rest
        have hlonger : IsSign sign (unsigned ++ fence :: tail) := by
          rcases hsign with hsigned | ⟨hempty, hhead⟩
          · exact Or.inl hsigned
          · refine Or.inr ⟨hempty, ?_⟩
            cases unsigned with
            | nil => exact fun char hchar => Option.some.inj hchar ▸ hfence.sign
            | cons char after => exact hhead
        rw [List.cons_append, List.append_assoc, scanExponent_marked hmarker hlonger,
          scanExponent_marked hmarker hsign, takeDigits_append hfence]
        split_ifs
        · rw [List.cons_append, List.append_assoc]
        · rfl

theorem scanUnsigned_append [PyRuntime] (negative : Bool) (text : List Char) :
    scanUnsigned negative (text ++ fence :: tail) =
      (scanUnsigned negative text).map fun scanned =>
        (scanned.1, scanned.2 ++ fence :: tail) := by
  rw [scanUnsigned, scanUnsigned, scanInteger_append hfence]
  rcases scanInteger text with _ | ⟨digits, rest⟩
  · rfl
  · simp only [Option.map_some, Option.bind_eq_bind, Option.bind_some,
      scanFraction_append hfence, scanExponent_append hfence]
    split_ifs <;> rfl

theorem scanNumber_append [PyRuntime] (text : List Char) :
    scanNumber (text ++ fence :: tail) =
      (scanNumber text).map fun scanned => (scanned.1, scanned.2 ++ fence :: tail) := by
  by_cases hminus : ∃ rest, text = '-' :: rest
  · obtain ⟨rest, rfl⟩ := hminus
    exact scanUnsigned_append hfence tail true rest
  · rw [not_exists] at hminus
    have hlonger : ∀ rest, text ++ fence :: tail ≠ '-' :: rest := by
      intro rest heq
      cases text with
      | nil => exact hfence.sign.1 (List.cons.inj heq).1
      | cons char after =>
          rw [(List.cons.inj heq).1] at hminus
          exact hminus after rfl
    rw [scanNumber_eq hminus, scanNumber_eq hlonger]
    exact scanUnsigned_append hfence tail false text

/-- A constant starts the longer text when it starts the text before the fence. -/
theorem prefix_append_iff {word : String}
    (hword : word ∈ ["null", "true", "false", "NaN", "Infinity", "-Infinity"])
    (text : List Char) :
    word.toList <+: text ++ fence :: tail ↔ word.toList <+: text := by
  constructor
  · intro hinitial
    have hfree : fence ∉ word.toList := hfence.letter word hword
    have hreach : text ++ [fence] <+: text ++ fence :: tail :=
      ⟨tail, by rw [List.append_assoc, List.singleton_append]⟩
    rcases List.prefix_or_prefix_of_prefix hinitial hreach with hshort | hlong
    · rcases List.prefix_concat_iff.mp hshort with heq | htext
      · rw [heq] at hfree
        exact absurd (List.mem_append_right text List.mem_cons_self) hfree
      · exact htext
    · exact absurd (hlong.subset (List.mem_append_right text List.mem_cons_self)) hfree
  · exact fun hinitial => hinitial.trans (List.prefix_append ..)

/-- No scalar reaches over a break. -/
theorem scanScalar_append [PyRuntime] (text : List Char) :
    scanScalar (text ++ fence :: tail) =
      (scanScalar text).map fun scanned => (scanned.1, scanned.2 ++ fence :: tail) := by
  have hdrop : ∀ {word : String} (value : Json), word.toList <+: text →
      some (value, (text ++ fence :: tail).drop word.toList.length) =
        (some (value, text.drop word.toList.length)).map fun scanned =>
          (scanned.1, scanned.2 ++ fence :: tail) := by
    intro word value hinitial
    rw [List.drop_append_of_le_length hinitial.length_le]
    rfl
  have hstarts : ∀ word ∈ ["null", "true", "false", "NaN", "Infinity", "-Infinity"],
      word.toList <+: text ++ fence :: tail ↔ word.toList <+: text :=
    fun word hword => prefix_append_iff hfence tail hword text
  rw [scanScalar, scanScalar]
  simp only [hstarts "null" (by decide), hstarts "true" (by decide),
    hstarts "false" (by decide), hstarts "NaN" (by decide), hstarts "Infinity" (by decide),
    hstarts "-Infinity" (by decide)]
  split_ifs with hnull htrue hfalse hnan hinfinity hnegative
  · exact hdrop .null hnull
  · exact hdrop (.bool true) htrue
  · exact hdrop (.bool false) hfalse
  · exact hdrop (.float "nan") hnan
  · exact hdrop (.float "inf") hinfinity
  · exact hdrop (.float "-inf") hnegative
  · exact scanNumber_append hfence tail text

end Fence

/-! ## Long integers -/

theorem startsLongInteger_eq {text : List Char} (hminus : ∀ rest, text ≠ '-' :: rest) :
    startsLongInteger text = startsLongInteger ('-' :: text) := by
  unfold startsLongInteger
  split
  · next rest => exact absurd rfl (hminus rest)
  · rfl

theorem startsLongInteger_of_scanUnsigned [PyRuntime] {negative : Bool} {text : List Char}
    {scanned : Json × List Char} (hscan : scanUnsigned negative text = some scanned) :
    startsLongInteger ('-' :: text) = false := by
  rw [scanUnsigned] at hscan
  rw [startsLongInteger]
  dsimp only
  rcases hinteger : scanInteger text with _ | ⟨digits, rest⟩
  · rfl
  · rw [hinteger] at hscan
    simp only [Option.bind_eq_bind, Option.bind_some] at hscan
    dsimp only
    by_cases hplain : ((scanFraction rest).1.isEmpty &&
        (scanExponent (scanFraction rest).2).1.isEmpty) = true
    · rw [if_pos hplain] at hscan
      split at hscan
      · cases hscan
      · next hlength =>
        rw [hplain, Bool.true_and]
        exact decide_eq_false hlength
    · rw [Bool.not_eq_true] at hplain
      rw [hplain]
      rfl

/-- What is scanned is not refused for its length. -/
theorem startsLongInteger_of_scanScalar [PyRuntime] {text : List Char}
    {scanned : Json × List Char} (hscan : scanScalar text = some scanned) :
    startsLongInteger text = false := by
  rw [scanScalar] at hscan
  split_ifs at hscan with hnull htrue hfalse hnan hinfinity hnegative
  · obtain ⟨rest, rfl⟩ := hnull
    rfl
  · obtain ⟨rest, rfl⟩ := htrue
    rfl
  · obtain ⟨rest, rfl⟩ := hfalse
    rfl
  · obtain ⟨rest, rfl⟩ := hnan
    rfl
  · obtain ⟨rest, rfl⟩ := hinfinity
    rfl
  · obtain ⟨rest, rfl⟩ := hnegative
    rfl
  · by_cases hminus : ∃ rest, text = '-' :: rest
    · obtain ⟨rest, rfl⟩ := hminus
      have hunsigned : scanUnsigned true rest = some scanned := hscan
      exact startsLongInteger_of_scanUnsigned hunsigned
    · rw [not_exists] at hminus
      rw [scanNumber_eq hminus] at hscan
      rw [startsLongInteger_eq hminus]
      exact startsLongInteger_of_scanUnsigned hscan

/-! ## What is left over -/

/-- The outcome of a scanner with the rest of the text as it is. -/
def plain {Value : Type} {text : PyStr} (outcome : Except LoadsError (Value × Remaining text)) :
    Except LoadsError (Value × PyStr) :=
  outcome.map fun scanned => (scanned.1, scanned.2.val)

/-- A constant or a number. -/
def readScalar [PyRuntime] (text : PyStr) : Except LoadsError (Json × PyStr) :=
  plain (scanScalarPoints text)

/-- A string after its opening quote. -/
def readString (text : PyStr) : Except LoadsError (PyStr × PyStr) :=
  plain (scanStringPoints text)

def readValue [PyRuntime] (limit : ℕ) (text : PyStr) : Except LoadsError (Json × PyStr) :=
  plain (scanOnce limit text)

def readItems [PyRuntime] (limit : ℕ) (text : PyStr) :
    Except LoadsError (List Json × PyStr) :=
  plain (parseArray limit text)

def readFields [PyRuntime] (limit : ℕ) (text : PyStr) :
    Except LoadsError (List (PyStr × Json) × PyStr) :=
  plain (parseObject limit text)

/-- A key, its colon and its value. -/
def readField [PyRuntime] (limit : ℕ) : PyStr → Except LoadsError ((PyStr × Json) × PyStr)
  | [] => .error .jsonDecode
  | point :: text =>
    if point ≠ ofChar '"' then .error .jsonDecode
    else do
      let (key, rest) ← readString text
      match skipPoints rest with
      | [] => .error .jsonDecode
      | colon :: rest =>
        if colon = ofChar ':' then do
          let (value, rest) ← readValue limit (skipPoints rest)
          .ok ((key, value), rest)
        else .error .jsonDecode

/-- After an element: the closing bracket, or a comma and more of them. -/
def continueWith {Element : Type} (close : Char)
    (more : PyStr → Except LoadsError (List Element × PyStr)) (element : Element)
    (text : PyStr) : Except LoadsError (List Element × PyStr) :=
  match skipPoints text with
  | [] => .error .jsonDecode
  | point :: rest =>
    if point = ofChar close then .ok ([element], rest)
    else if point = ofChar ',' then
      (more (skipPoints rest)).map fun scanned => (element :: scanned.1, scanned.2)
    else .error .jsonDecode

/-- After an opening bracket: the closing one, or the elements. -/
def openWith {Element : Type} (close : Char)
    (elements : PyStr → Except LoadsError (List Element × PyStr))
    (build : List Element → Json) (text : PyStr) : Except LoadsError (Json × PyStr) :=
  match skipPoints text with
  | [] => .error .jsonDecode
  | point :: rest =>
    if point = ofChar close then .ok (build [], rest)
    else (elements (point :: rest)).map fun scanned => (build scanned.1, scanned.2)

section Continuations

variable {Element : Type} {close : Char}
  {more : PyStr → Except LoadsError (List Element × PyStr)}

theorem continueWith_of_nil (element : Element) {text : PyStr} (htext : skipPoints text = []) :
    continueWith close more element text = .error .jsonDecode := by
  rw [continueWith, htext]

theorem continueWith_of_close (element : Element) {text rest : PyStr}
    (htext : skipPoints text = ofChar close :: rest) :
    continueWith close more element text = .ok ([element], rest) := by
  rw [continueWith, htext]
  exact if_pos rfl

theorem continueWith_of_comma (element : Element) {text rest : PyStr} (hclose : close ≠ ',')
    (htext : skipPoints text = ofChar ',' :: rest) :
    continueWith close more element text =
      (more (skipPoints rest)).map fun scanned => (element :: scanned.1, scanned.2) := by
  rw [continueWith, htext]
  exact (if_neg fun heq => hclose (ofChar_injective heq).symm).trans (if_pos rfl)

theorem continueWith_of_other (element : Element) {text rest : PyStr} {point : CodePoint}
    (htext : skipPoints text = point :: rest) (hclose : point ≠ ofChar close)
    (hcomma : point ≠ ofChar ',') :
    continueWith close more element text = .error .jsonDecode := by
  rw [continueWith, htext]
  exact (if_neg hclose).trans (if_neg hcomma)

variable {build : List Element → Json}

theorem openWith_of_nil {text : PyStr} (htext : skipPoints text = []) :
    openWith close more build text = .error .jsonDecode := by
  rw [openWith, htext]

theorem openWith_of_close {text rest : PyStr} (htext : skipPoints text = ofChar close :: rest) :
    openWith close more build text = .ok (build [], rest) := by
  rw [openWith, htext]
  exact if_pos rfl

theorem openWith_of_other {text rest : PyStr} {point : CodePoint}
    (htext : skipPoints text = point :: rest) (hclose : point ≠ ofChar close) :
    openWith close more build text =
      (more (point :: rest)).map fun scanned => (build scanned.1, scanned.2) := by
  rw [openWith, htext]
  exact if_neg hclose

end Continuations

theorem next?_of_nil {text : PyStr} (char : Char) (rest : Remaining text)
    (hrest : rest.val = []) : rest.next? char = none := by
  rw [Remaining.next?]
  split
  · rfl
  · next point after heq =>
    rw [hrest] at heq
    cases heq

theorem next?_of_cons {text : PyStr} {char : Char} (rest : Remaining text) {point : CodePoint}
    {after : PyStr} (hrest : rest.val = point :: after) :
    (point = ofChar char → ∃ next, rest.next? char = some next ∧ next.val = after) ∧
      (point ≠ ofChar char → rest.next? char = none) := by
  rw [Remaining.next?]
  split
  · next heq =>
    rw [hrest] at heq
    cases heq
  · next first others heq =>
    obtain ⟨rfl, rfl⟩ := List.cons.inj (heq.symm.trans hrest)
    constructor
    · intro hpoint
      rw [if_pos hpoint]
      exact ⟨_, rfl, rfl⟩
    · intro hpoint
      exact if_neg hpoint

theorem readScalar_of_some [PyRuntime] {text : PyStr} {value : Json} {rest : List Char}
    (hscan : scanScalar (text.map asciiChar) = some (value, rest)) :
    readScalar text = .ok (value, text.drop (text.length - rest.length)) := by
  rw [readScalar, scanScalarPoints]
  split
  · next other left hother =>
    obtain ⟨rfl, rfl⟩ := Prod.mk.inj (Option.some.inj (hother.symm.trans hscan))
    rfl
  · next hnone =>
    rw [hscan] at hnone
    cases hnone

theorem readScalar_of_none [PyRuntime] {text : PyStr}
    (hscan : scanScalar (text.map asciiChar) = none) :
    readScalar text = .error
      (if startsLongInteger (text.map asciiChar) then .intDigits else .jsonDecode) := by
  rw [readScalar, scanScalarPoints]
  split
  · next other left hother =>
    rw [hscan] at hother
    cases hother
  · rfl

theorem readString_of_some {text rest : PyStr} {units : List (Bool × CodePoint)}
    (hscan : scanUnitPoints text = some (units, rest)) :
    readString text = .ok (joinSurrogates units, rest) := by
  rw [readString, scanStringPoints_eq hscan]
  rfl

theorem readString_of_none {text : PyStr} (hscan : scanUnitPoints text = none) :
    readString text = .error .jsonDecode := by
  rw [readString, scanStringPoints]
  split
  · next units rest hunits =>
    rw [hscan] at hunits
    cases hunits
  · rfl

/-- The decoder leaves less than it was given. -/
theorem length_lt_of_plain {Value : Type} {text rest : PyStr} {value : Value}
    {outcome : Except LoadsError (Value × Remaining text)}
    (hplain : plain outcome = .ok (value, rest)) : rest.length < text.length := by
  rcases outcome with error | ⟨scanned, left⟩
  · cases hplain
  · obtain ⟨-, rfl⟩ := Prod.mk.inj (Except.ok.inj hplain)
    exact left.property

/-! ## The decoder on texts -/

section Decoder

variable [PyRuntime] (limit : ℕ)

theorem readValue_nil : readValue limit [] = .error .jsonDecode := by
  rw [readValue, scanOnce.eq_def]
  rfl

theorem readValue_string (text : PyStr) :
    readValue limit (ofChar '"' :: text) =
      (readString text).map fun scanned => (.str scanned.1, scanned.2) := by
  rw [readValue, scanOnce.eq_def]
  dsimp only
  rw [if_pos rfl, readString]
  rcases scanStringPoints text with error | scanned <;> rfl

theorem readValue_other {point : CodePoint} (hquote : point ≠ ofChar '"')
    (hbracket : point ≠ ofChar '[') (hbrace : point ≠ ofChar '\x7b') (text : PyStr) :
    readValue limit (point :: text) = readScalar (point :: text) := by
  rw [readValue, scanOnce.eq_def]
  dsimp only
  rw [if_neg hquote, if_neg hbracket, if_neg hbrace]
  rfl

theorem readValue_scalar {point : CodePoint} (hpoint : isBreak point = false) (text : PyStr) :
    readValue limit (point :: text) = readScalar (point :: text) := by
  have hne : ∀ char ∈ breakChars, point ≠ ofChar char := by
    rintro char hchar rfl
    have hbreak : isBreak (ofChar char) = true :=
      List.any_eq_true.mpr ⟨char, hchar, beq_self_eq_true _⟩
    rw [hbreak] at hpoint
    cases hpoint
  exact readValue_other limit (hne _ (by decide)) (hne _ (by decide)) (hne _ (by decide)) text

theorem readValue_list_zero (text : PyStr) :
    readValue 0 (ofChar '[' :: text) = .error .recursion := by
  rw [readValue, scanOnce.eq_def]
  rfl

theorem readValue_dict_zero (text : PyStr) :
    readValue 0 (ofChar '\x7b' :: text) = .error .recursion := by
  rw [readValue, scanOnce.eq_def]
  rfl

theorem readItems_nil : readItems limit [] = .error .jsonDecode := by
  rw [readItems, parseArray.eq_def, scanOnce.eq_def]
  rfl

theorem readFields_nil : readFields limit [] = .error .jsonDecode := by
  rw [readFields, parseObject.eq_def]
  rfl

omit [PyRuntime] in
/-- What is scanned further on, as a part of the whole. -/
theorem plain_trans {Value Result : Type} {text : PyStr} (middle : Remaining text)
    (build : Value → Result) (outcome : Except LoadsError (Value × Remaining middle.val)) :
    plain (outcome >>= fun scanned => .ok (build scanned.1, middle.trans scanned.2)) =
      (plain outcome).map fun scanned => (build scanned.1, scanned.2) := by
  rcases outcome with error | scanned <;> rfl

theorem readValue_list (text : PyStr) :
    readValue (limit + 1) (ofChar '[' :: text) = openWith ']' (readItems limit) .list text := by
  rw [readValue, scanOnce.eq_def, openWith]
  dsimp only
  rw [if_neg (by decide), if_pos rfl]
  set inner : Remaining (ofChar '[' :: text) := ⟨text, Nat.lt_succ_self _⟩
  have hmore := plain_trans inner.skip Json.list (parseArray limit inner.skip.val)
  have hitems : plain (parseArray limit inner.skip.val) = readItems limit (skipPoints text) :=
    rfl
  rcases hskip : skipPoints text with _ | ⟨point, after⟩
  · rw [next?_of_nil ']' inner.skip hskip]
    exact hmore.trans (by rw [hitems, hskip, readItems_nil]; rfl)
  · by_cases hclose : point = ofChar ']'
    · obtain ⟨next, hnext, hval⟩ := (next?_of_cons inner.skip hskip).1 hclose
      rw [hnext]
      dsimp only
      rw [if_pos hclose, ← hval]
      rfl
    · rw [(next?_of_cons inner.skip hskip).2 hclose]
      dsimp only
      rw [if_neg hclose, ← hskip, ← hitems]
      exact hmore

theorem readValue_dict (text : PyStr) :
    readValue (limit + 1) (ofChar '\x7b' :: text) =
      openWith '\x7d' (readFields limit) (fun pairs => .dict (ofPairs pairs)) text := by
  rw [readValue, scanOnce.eq_def, openWith]
  dsimp only
  rw [if_neg (by decide), if_neg (by decide), if_pos rfl]
  set inner : Remaining (ofChar '\x7b' :: text) := ⟨text, Nat.lt_succ_self _⟩
  have hmore := plain_trans inner.skip (fun pairs => Json.dict (ofPairs pairs))
    (parseObject limit inner.skip.val)
  have hfields : plain (parseObject limit inner.skip.val) =
      readFields limit (skipPoints text) := rfl
  rcases hskip : skipPoints text with _ | ⟨point, after⟩
  · rw [next?_of_nil '\x7d' inner.skip hskip]
    exact hmore.trans (by rw [hfields, hskip, readFields_nil]; rfl)
  · by_cases hclose : point = ofChar '\x7d'
    · obtain ⟨next, hnext, hval⟩ := (next?_of_cons inner.skip hskip).1 hclose
      rw [hnext]
      dsimp only
      rw [if_pos hclose, ← hval]
      rfl
    · rw [(next?_of_cons inner.skip hskip).2 hclose]
      dsimp only
      rw [if_neg hclose, ← hskip, ← hfields]
      exact hmore

omit [PyRuntime] in
/-- After an element, on what the decoder left over. -/
theorem plain_continue {Element : Type} {text : PyStr} {close : Char}
    (parse : (text : PyStr) → Except LoadsError (List Element × Remaining text))
    (element : Element) (rest : Remaining text)
    {found : Except LoadsError (List Element × Remaining text)}
    (hclosed : ∀ after, rest.skip.next? close = some after → found = .ok ([element], after))
    (hmore : ∀ after, rest.skip.next? close = none → rest.skip.next? ',' = some after →
      found = parse after.skip.val >>= fun scanned =>
        .ok (element :: scanned.1, after.skip.trans scanned.2))
    (hnone : rest.skip.next? close = none → rest.skip.next? ',' = none →
      found = .error .jsonDecode) :
    plain found = continueWith close (fun text => plain (parse text)) element rest.val := by
  rw [continueWith]
  rcases hskip : skipPoints rest.val with _ | ⟨point, after⟩
  · rw [hnone (next?_of_nil close rest.skip hskip) (next?_of_nil ',' rest.skip hskip)]
    rfl
  · dsimp only
    by_cases hclose : point = ofChar close
    · obtain ⟨next, hnext, hval⟩ := (next?_of_cons rest.skip hskip).1 hclose
      rw [hclosed next hnext, if_pos hclose, ← hval]
      rfl
    · have hopen := (next?_of_cons rest.skip hskip).2 hclose
      rw [if_neg hclose]
      by_cases hcomma : point = ofChar ','
      · obtain ⟨next, hnext, hval⟩ := (next?_of_cons rest.skip hskip).1 hcomma
        rw [hmore next hopen hnext, if_pos hcomma, ← hval]
        exact plain_trans next.skip (element :: ·) (parse next.skip.val)
      · rw [hnone hopen ((next?_of_cons rest.skip hskip).2 hcomma), if_neg hcomma]
        rfl

theorem readItems_eq (text : PyStr) :
    readItems limit text =
      (readValue limit text).bind fun scanned =>
        continueWith ']' (readItems limit) scanned.1 scanned.2 := by
  rw [readItems, parseArray.eq_def, readValue]
  rcases scanOnce limit text with error | ⟨item, rest⟩
  · rfl
  · refine plain_continue (parseArray limit) item rest ?_ ?_ ?_
    · intro after hclosed
      simp only [bind, Except.bind, hclosed]
    · intro after hopen hcomma
      simp only [bind, Except.bind, hopen, hcomma]
    · intro hopen hnone
      simp only [bind, Except.bind, hopen, hnone]

theorem readFields_eq (text : PyStr) :
    readFields limit text =
      (readField limit text).bind fun scanned =>
        continueWith '\x7d' (readFields limit) scanned.1 scanned.2 := by
  cases text with
  | nil => exact readFields_nil limit
  | cons point rest =>
      rw [readFields, parseObject.eq_def, readField]
      dsimp only
      by_cases hquote : point ≠ ofChar '"'
      · rw [if_pos hquote, if_pos hquote]
        rfl
      · rw [if_neg hquote, if_neg hquote, readString]
        rcases scanStringPoints rest with error | ⟨key, afterKey⟩
        · rfl
        · set inner : Remaining (point :: rest) := ⟨rest, Nat.lt_succ_self _⟩
          simp only [plain, bind, Except.bind, Except.map]
          rcases hskip : skipPoints afterKey.val with _ | ⟨colon, tail⟩
          · rw [next?_of_nil ':' (inner.trans afterKey).skip hskip]
          · by_cases hcolon : colon = ofChar ':'
            · obtain ⟨next, hnext, rfl⟩ :=
                (next?_of_cons (inner.trans afterKey).skip hskip).1 hcolon
              rw [hnext]
              dsimp only
              rw [if_pos hcolon, readValue]
              have hval : next.skip.val = skipPoints next.val := rfl
              rw [← hval]
              rcases scanOnce limit next.skip.val with error | ⟨value, afterValue⟩
              · rfl
              · refine plain_continue (parseObject limit) (key, value)
                  (next.skip.trans afterValue) ?_ ?_ ?_
                · intro after hclosed
                  simp only [hclosed]
                · intro after hopen hcomma
                  simp only [hopen, hcomma]
                  rfl
                · intro hopen hnone
                  simp only [hopen, hnone]
            · rw [(next?_of_cons (inner.trans afterKey).skip hskip).2 hcolon]
              dsimp only
              rw [if_neg hcolon]

end Decoder

end SsfTransmitter.Python
