import SsfTransmitter.Python.Codecs

/-!
# `json.loads` with its exceptions

The decoder on bytes that come from outside.  It tells apart the errors that
`JSONDecodeError` and `UnicodeDecodeError` cover from the two that they do not:
nesting beyond what the interpreter's stack allows, and an integer longer than
the interpreter converts.
-/

namespace SsfTransmitter.Python

/-- The exceptions of `json.loads`. -/
inductive LoadsError where
  | jsonDecode
  | unicodeDecode
  | recursion
  -- the plain `ValueError` of `sys.set_int_max_str_digits`
  | intDigits
  deriving DecidableEq

/-- What a scanner leaves over: less than it was given. -/
abbrev Remaining (text : PyStr) := {rest : PyStr // rest.length < text.length}

namespace Remaining

/-- What is left of what was left. -/
def trans {text : PyStr} (middle : Remaining text) (rest : Remaining middle.val) :
    Remaining text :=
  ⟨rest.val, rest.property.trans middle.property⟩

end Remaining

/-- `\s` of the decoder. -/
def isSpacePoint (point : CodePoint) : Bool :=
  point.val == 32 || point.val == 9 || point.val == 10 || point.val == 13

def skipPoints (text : PyStr) : PyStr :=
  text.dropWhile isSpacePoint

theorem length_skipPoints_le (text : PyStr) : (skipPoints text).length ≤ text.length :=
  (List.dropWhile_suffix _).length_le

/-- An ASCII point as a character, any other as one that no token has. -/
def asciiChar (point : CodePoint) : Char :=
  if point.val < 128 then Char.ofNat point.val else '\x00'

/-- The code units of a string up to its closing quote, each marked with whether a
`\u` escape wrote it. -/
def scanUnitPoints : PyStr → Option (List (Bool × CodePoint) × PyStr)
  | [] => none
  | point :: rest =>
    if point = ofChar '"' then some ([], rest)
    else if point = ofChar '\\' then
      match rest with
      | [] => none
      | escape :: rest =>
        if escape = ofChar 'u' then
          match rest with
          | first :: second :: third :: fourth :: rest => do
            let unit ← hexUnit (asciiChar first) (asciiChar second) (asciiChar third)
              (asciiChar fourth)
            let (units, rest) ← scanUnitPoints rest
            some ((true, unit) :: units, rest)
          | _ => none
        else do
          let char ← unescape (asciiChar escape)
          let (units, rest) ← scanUnitPoints rest
          some ((false, ofChar char) :: units, rest)
    -- strict mode: a control character is refused
    else if point.val < 32 then none
    else do
      let (units, rest) ← scanUnitPoints rest
      some ((false, point) :: units, rest)

theorem length_scanUnitPoints_lt {text rest : PyStr} {units : List (Bool × CodePoint)}
    (hscan : scanUnitPoints text = some (units, rest)) : rest.length < text.length := by
  fun_induction scanUnitPoints text generalizing units rest with
  | case1 => cases hscan
  | case2 after =>
      obtain ⟨-, rfl⟩ := Prod.mk.inj (Option.some.inj hscan)
      simp
  | case3 => cases hscan
  | case4 first second third fourth after _ ih =>
      simp only [Option.bind_eq_bind, Option.bind_eq_some_iff, Option.some.injEq,
        Prod.exists, Prod.mk.injEq] at hscan
      obtain ⟨unit, -, others, last, hrest, -, rfl⟩ := hscan
      have hshorter := ih hrest
      simp only [List.length_cons]
      omega
  | case5 => cases hscan
  | case6 escape after _ _ ih =>
      simp only [Option.bind_eq_bind, Option.bind_eq_some_iff, Option.some.injEq,
        Prod.exists, Prod.mk.injEq] at hscan
      obtain ⟨char, -, others, last, hrest, -, rfl⟩ := hscan
      have hshorter := ih hrest
      simp only [List.length_cons]
      omega
  | case7 => cases hscan
  | case8 point after _ _ _ ih =>
      simp only [Option.bind_eq_bind, Option.bind_eq_some_iff, Option.some.injEq,
        Prod.exists, Prod.mk.injEq] at hscan
      obtain ⟨others, last, hrest, -, rfl⟩ := hscan
      have hshorter := ih hrest
      simp only [List.length_cons]
      omega

theorem length_takeDigits (text : List Char) :
    (takeDigits text).1.length + (takeDigits text).2.length = text.length := by
  rw [takeDigits, ← List.length_append, List.span_eq_takeWhile_dropWhile,
    List.takeWhile_append_dropWhile]

theorem length_scanInteger_lt {text digits rest : List Char}
    (hscan : scanInteger text = some (digits, rest)) : rest.length < text.length := by
  rw [scanInteger.eq_def] at hscan
  split at hscan
  · obtain ⟨-, rfl⟩ := Prod.mk.inj (Option.some.inj hscan)
    simp
  · have hlength := length_takeDigits text
    split at hscan
    next taken left htaken =>
      rw [htaken] at hlength
      split_ifs at hscan with hempty
      obtain ⟨-, rfl⟩ := Prod.mk.inj (Option.some.inj hscan)
      have hpos : 0 < taken.length := List.length_pos_iff.mpr (by simpa using hempty)
      simp only at hlength
      omega

theorem length_scanFraction_le (text : List Char) :
    (scanFraction text).2.length ≤ text.length := by
  rw [scanFraction.eq_def]
  split
  · next rest =>
    have hlength := length_takeDigits rest
    split
    next taken left htaken =>
      rw [htaken] at hlength
      split_ifs
      · exact le_rfl
      · simp only [List.length_cons] at hlength ⊢
        omega
  · exact le_rfl

theorem length_scanExponent_le (text : List Char) :
    (scanExponent text).2.length ≤ text.length := by
  rw [scanExponent.eq_def]
  split
  · next marker rest =>
    split_ifs
    · exact le_rfl
    · split
      next sign unsigned hmatch =>
        have hle : unsigned.length ≤ rest.length := by
          split at hmatch <;> obtain ⟨-, rfl⟩ := Prod.mk.inj hmatch <;> simp
        have hlength := length_takeDigits unsigned
        dsimp only
        split_ifs
        · exact le_rfl
        · simp only [List.length_cons]
          omega
  · exact le_rfl

theorem length_scanNumber_lt [PyRuntime] {text rest : List Char} {value : Json}
    (hscan : scanNumber text = some (value, rest)) : rest.length < text.length := by
  rw [scanNumber.eq_def] at hscan
  split at hscan
  next negative unsigned hmatch =>
    have hle : unsigned.length ≤ text.length := by
      split at hmatch <;> obtain ⟨-, rfl⟩ := Prod.mk.inj hmatch <;> simp
    simp only [Option.bind_eq_bind, Option.bind_eq_some_iff, Prod.exists] at hscan
    obtain ⟨digits, afterInteger, hinteger, hscan⟩ := hscan
    have hfirst := length_scanInteger_lt hinteger
    have hsecond := length_scanFraction_le afterInteger
    have hthird := length_scanExponent_le (scanFraction afterInteger).2
    have hrest : (scanExponent (scanFraction afterInteger).2).2 = rest := by
      split at hscan
      · split at hscan
        · cases hscan
        · exact (Prod.mk.inj (Option.some.inj hscan)).2
      · exact (Prod.mk.inj (Option.some.inj hscan)).2
    rw [← hrest]
    omega

theorem length_scanScalar_lt [PyRuntime] {text rest : List Char} {value : Json}
    (hscan : scanScalar text = some (value, rest)) : rest.length < text.length := by
  have hword : ∀ word : String, word.toList <+: text → 0 < word.toList.length →
      (text.drop word.toList.length).length < text.length := by
    intro word hprefix hpos
    have hle := hprefix.length_le
    rw [List.length_drop]
    omega
  rw [scanScalar] at hscan
  split_ifs at hscan with hnull htrue hfalse hnan hinfinity hnegative
  · obtain ⟨-, rfl⟩ := Prod.mk.inj (Option.some.inj hscan)
    exact hword "null" hnull (by decide)
  · obtain ⟨-, rfl⟩ := Prod.mk.inj (Option.some.inj hscan)
    exact hword "true" htrue (by decide)
  · obtain ⟨-, rfl⟩ := Prod.mk.inj (Option.some.inj hscan)
    exact hword "false" hfalse (by decide)
  · obtain ⟨-, rfl⟩ := Prod.mk.inj (Option.some.inj hscan)
    exact hword "NaN" hnan (by decide)
  · obtain ⟨-, rfl⟩ := Prod.mk.inj (Option.some.inj hscan)
    exact hword "Infinity" hinfinity (by decide)
  · obtain ⟨-, rfl⟩ := Prod.mk.inj (Option.some.inj hscan)
    exact hword "-Infinity" hnegative (by decide)
  · exact length_scanNumber_lt hscan

/-- Whether a number starts the text that is an integer beyond CPython's limit. -/
def startsLongInteger (text : List Char) : Bool :=
  let unsigned := match text with
    | '-' :: rest => rest
    | _ => text
  match scanInteger unsigned with
  | some (digits, rest) =>
    let (fraction, rest) := scanFraction rest
    let (exponent, _) := scanExponent rest
    fraction.isEmpty && exponent.isEmpty && 4300 < digits.length
  | none => false

/-- The constants and numbers of `scan_once`. -/
def scanScalarPoints [PyRuntime] (text : PyStr) :
    Except LoadsError (Json × Remaining text) :=
  match hscan : scanScalar (text.map asciiChar) with
  | some (value, rest) => .ok (value, ⟨text.drop (text.length - rest.length), by
      have hshorter := length_scanScalar_lt hscan
      rw [List.length_map] at hshorter
      rw [List.length_drop]
      omega⟩)
  | none =>
    .error (if startsLongInteger (text.map asciiChar) then .intDigits else .jsonDecode)

/-- A string after its opening quote. -/
def scanStringPoints (text : PyStr) : Except LoadsError (PyStr × Remaining text) :=
  match hscan : scanUnitPoints text with
  | some (units, rest) => .ok (joinSurrogates units, ⟨rest, length_scanUnitPoints_lt hscan⟩)
  | none => .error .jsonDecode

namespace Remaining

variable {text : PyStr}

/-- White space before the next token. -/
def skip (rest : Remaining text) : Remaining text :=
  ⟨skipPoints rest.val, (length_skipPoints_le rest.val).trans_lt rest.property⟩

/-- The text after its first character, when it starts with `char`. -/
def next? (char : Char) (rest : Remaining text) : Option (Remaining text) :=
  match hrest : rest.val with
  | [] => none
  | point :: after =>
    if point = ofChar char then
      some ⟨after, by
        have hshorter := rest.property
        rw [hrest, List.length_cons] at hshorter
        omega⟩
    else none

end Remaining

mutual

/-- `scan_once`, where `limit` more containers may be opened. -/
def scanOnce [PyRuntime] (limit : ℕ) (text : PyStr) :
    Except LoadsError (Json × Remaining text) :=
  match text with
  | [] => .error .jsonDecode
  | point :: rest =>
    let inner : Remaining (point :: rest) := ⟨rest, Nat.lt_succ_self _⟩
    if point = ofChar '"' then do
      let (value, after) ← scanStringPoints inner.val
      .ok (.str value, inner.trans after)
    else if point = ofChar '[' then
      match limit with
      | 0 => .error .recursion
      | limit + 1 =>
        match inner.skip.next? ']' with
        | some after => .ok (.list [], after)
        | none => do
          let (items, after) ← parseArray limit inner.skip.val
          .ok (.list items, inner.skip.trans after)
    else if point = ofChar '\x7b' then
      match limit with
      | 0 => .error .recursion
      | limit + 1 =>
        match inner.skip.next? '\x7d' with
        | some after => .ok (.dict [], after)
        | none => do
          let (pairs, after) ← parseObject limit inner.skip.val
          .ok (.dict (ofPairs pairs), inner.skip.trans after)
    else scanScalarPoints (point :: rest)
termination_by 2 * text.length
decreasing_by
  all_goals
    have hshorter := inner.skip.property
    simp only [inner] at hshorter
    omega

/-- The items of an array and its closing bracket. -/
def parseArray [PyRuntime] (limit : ℕ) (text : PyStr) :
    Except LoadsError (List Json × Remaining text) := do
  let (item, rest) ← scanOnce limit text
  match rest.skip.next? ']' with
  | some after => .ok ([item], after)
  | none =>
    match rest.skip.next? ',' with
    | some after =>
      let (items, last) ← parseArray limit after.skip.val
      .ok (item :: items, after.skip.trans last)
    | none => .error .jsonDecode
termination_by 2 * text.length + 1
decreasing_by
  · omega
  · have hshorter := after.skip.property
    omega

/-- The pairs of an object and its closing brace. -/
def parseObject [PyRuntime] (limit : ℕ) (text : PyStr) :
    Except LoadsError (List (PyStr × Json) × Remaining text) :=
  match text with
  | [] => .error .jsonDecode
  | point :: rest =>
    if point ≠ ofChar '"' then .error .jsonDecode
    else do
      let inner : Remaining (point :: rest) := ⟨rest, Nat.lt_succ_self _⟩
      let (key, afterKey) ← scanStringPoints inner.val
      match (inner.trans afterKey).skip.next? ':' with
      | none => .error .jsonDecode
      | some colon =>
        let (value, afterValue) ← scanOnce limit colon.skip.val
        let value' := colon.skip.trans afterValue
        match value'.skip.next? '\x7d' with
        | some after => .ok ([(key, value)], after)
        | none =>
          match value'.skip.next? ',' with
          | some after =>
            let (pairs, last) ← parseObject limit after.skip.val
            .ok ((key, value) :: pairs, after.skip.trans last)
          | none => .error .jsonDecode
termination_by 2 * text.length
decreasing_by
  · have hshorter := colon.skip.property
    omega
  · have hshorter := after.skip.property
    omega

end

/-- `json.loads(text)` when the stack allows `limit` nested containers. -/
def loadsText [PyRuntime] (limit : ℕ) (text : PyStr) : Except LoadsError Json := do
  let (value, rest) ← scanOnce limit (skipPoints text)
  if (skipPoints rest.val).isEmpty then .ok value else .error .jsonDecode

/-- `json.loads(raw_body)` -/
def loadsBytes [PyRuntime] (limit : ℕ) (bytes : PyBytes) : Except LoadsError Json :=
  match decodeDetected bytes with
  | none => .error .unicodeDecode
  | some text => loadsText limit text

/-! ## The shape of decoded values -/

namespace Json

mutual

/-- How many containers lie inside each other. -/
def depth : Json → ℕ
  | .list items => depthItems items + 1
  | .dict fields => depthFields fields + 1
  | _ => 0

def depthItems : List Json → ℕ
  | [] => 0
  | item :: items => max (depth item) (depthItems items)

def depthFields : List (PyStr × Json) → ℕ
  | [] => 0
  | (_, value) :: fields => max (depth value) (depthFields fields)

end

/-- The integers that the interpreter converts to text have 4300 digits at most. -/
def integerBound : ℕ := 10 ^ 4300

mutual

/-- No integer has more digits than the interpreter converts. -/
def shortIntegers : Json → Bool
  | .int value => value.natAbs < integerBound
  | .list items => shortItems items
  | .dict fields => shortFields fields
  | _ => true

def shortItems : List Json → Bool
  | [] => true
  | item :: items => shortIntegers item && shortItems items

def shortFields : List (PyStr × Json) → Bool
  | [] => true
  | (_, value) :: fields => shortIntegers value && shortFields fields

end

end Json

section Shape

private theorem foldl_digits_lt (digits : List Char)
    (hdigits : ∀ digit ∈ digits, digit.isDigit = true) (start : ℕ) :
    digits.foldl (fun value digit => 10 * value + (digit.toNat - '0'.toNat)) start <
      (start + 1) * 10 ^ digits.length := by
  induction digits generalizing start with
  | nil => simp
  | cons digit rest ih =>
      have hdigit : digit.toNat - '0'.toNat ≤ 9 := by
        have hrange := hdigits digit List.mem_cons_self
        simp only [Char.isDigit, Bool.and_eq_true, decide_eq_true_eq] at hrange
        have hle := UInt32.le_iff_toNat_le.mp hrange.2
        have hzero : '0'.toNat = 48 := rfl
        have hnine : '9'.val.toNat = 57 := rfl
        have hval : digit.toNat = digit.val.toNat := rfl
        omega
      rw [List.foldl_cons, List.length_cons]
      calc
        _ < (10 * start + (digit.toNat - '0'.toNat) + 1) * 10 ^ rest.length :=
          ih (fun other hother => hdigits other (List.mem_cons_of_mem _ hother)) _
        _ ≤ (10 * (start + 1)) * 10 ^ rest.length := Nat.mul_le_mul_right _ (by omega)
        _ = (start + 1) * 10 ^ (rest.length + 1) := by ring

theorem isDigit_of_scanInteger {text digits rest : List Char}
    (hscan : scanInteger text = some (digits, rest)) :
    ∀ digit ∈ digits, digit.isDigit = true := by
  rw [scanInteger.eq_def] at hscan
  split at hscan
  · obtain ⟨rfl, -⟩ := Prod.mk.inj (Option.some.inj hscan)
    simp
  · split at hscan
    next taken left htaken =>
      split_ifs at hscan
      obtain ⟨rfl, -⟩ := Prod.mk.inj (Option.some.inj hscan)
      intro digit hdigit
      rw [takeDigits, List.span_eq_takeWhile_dropWhile] at htaken
      obtain ⟨rfl, -⟩ := Prod.mk.inj htaken
      exact List.mem_takeWhile_imp hdigit

theorem shortIntegers_of_scanNumber [PyRuntime] {text rest : List Char} {value : Json}
    (hscan : scanNumber text = some (value, rest)) : value.shortIntegers = true := by
  rw [scanNumber.eq_def] at hscan
  split at hscan
  next negative unsigned hmatch =>
    simp only [Option.bind_eq_bind, Option.bind_eq_some_iff, Prod.exists] at hscan
    obtain ⟨digits, afterInteger, hinteger, hscan⟩ := hscan
    split at hscan
    · split at hscan
      · cases hscan
      · next hlength =>
        obtain ⟨rfl, -⟩ := Prod.mk.inj (Option.some.inj hscan)
        have hlt := foldl_digits_lt digits (isDigit_of_scanInteger hinteger) 0
        rw [Nat.zero_add, Nat.one_mul] at hlt
        have hbound : 10 ^ digits.length ≤ Json.integerBound :=
          Nat.pow_le_pow_right (Nat.succ_pos 9) (Nat.not_lt.mp hlength)
        have hshort := hlt.trans_le hbound
        simp only [Json.shortIntegers, decide_eq_true_eq]
        generalize Json.integerBound = bound at hshort
        split <;> simpa using hshort
    · obtain ⟨rfl, -⟩ := Prod.mk.inj (Option.some.inj hscan)
      rfl

theorem shortIntegers_of_scanScalarPoints [PyRuntime] {text : PyStr} {value : Json}
    {rest : Remaining text} (hscan : scanScalarPoints text = .ok (value, rest)) :
    value.shortIntegers = true := by
  rw [scanScalarPoints] at hscan
  split at hscan
  · next found left hfound =>
    obtain ⟨rfl, -⟩ := Prod.mk.inj (Except.ok.inj hscan)
    rw [scanScalar] at hfound
    split_ifs at hfound
    case neg => exact shortIntegers_of_scanNumber hfound
    all_goals
      obtain ⟨rfl, -⟩ := Prod.mk.inj (Option.some.inj hfound)
      rfl
  · cases hscan

theorem shortFields_set {fields : Dict} {key : PyStr} {value : Json}
    (hfields : Json.shortFields fields = true) (hvalue : value.shortIntegers = true) :
    Json.shortFields (Dict.set fields key value) = true := by
  rw [Dict.set]
  split
  · clear * - hfields hvalue
    induction fields with
    | nil => rfl
    | cons field fields ih =>
        obtain ⟨name, old⟩ := field
        simp only [Json.shortFields, Bool.and_eq_true] at hfields
        simp only [List.map_cons]
        split <;> simp [Json.shortFields, hfields, hvalue, ih hfields.2]
  · induction fields with
    | nil => simp [Json.shortFields, hvalue]
    | cons field fields ih =>
        obtain ⟨name, old⟩ := field
        simp only [Json.shortFields, Bool.and_eq_true] at hfields
        simp_all [Json.shortFields]

theorem shortFields_ofPairs {pairs : List (PyStr × Json)}
    (hpairs : Json.shortFields pairs = true) : Json.shortFields (ofPairs pairs) = true := by
  suffices hfold : ∀ fields : Dict, Json.shortFields fields = true →
      Json.shortFields (pairs.foldl
        (fun fields pair => Dict.set fields pair.1 pair.2) fields) = true from hfold [] rfl
  induction pairs with
  | nil => exact fun _ hfields => hfields
  | cons pair rest ih =>
      obtain ⟨key, value⟩ := pair
      simp only [Json.shortFields, Bool.and_eq_true] at hpairs
      exact fun fields hfields => ih hpairs.2 _ (shortFields_set hfields hpairs.1)

/-- No integer of a scanned value is longer than the interpreter converts. -/
theorem shortIntegers_of_scan [PyRuntime] :
    (∀ limit text value rest, scanOnce limit text = .ok (value, rest) →
      value.shortIntegers = true) ∧
    (∀ limit text pairs rest, parseObject limit text = .ok (pairs, rest) →
      Json.shortFields pairs = true) ∧
    ∀ limit text items rest, parseArray limit text = .ok (items, rest) →
      Json.shortItems items = true := by
  apply scanOnce.mutual_induct
    (fun limit text => ∀ value rest, scanOnce limit text = .ok (value, rest) →
      value.shortIntegers = true)
    (fun limit text => ∀ pairs rest, parseObject limit text = .ok (pairs, rest) →
      Json.shortFields pairs = true)
    (fun limit text => ∀ items rest, parseArray limit text = .ok (items, rest) →
      Json.shortItems items = true)
  case case1 =>
    intro limit value rest hscan
    simp [scanOnce] at hscan
  case case2 =>
    intro limit rest value after hscan
    rw [scanOnce.eq_def] at hscan
    dsimp only at hscan
    rw [if_pos rfl, bind_eq_ok_iff] at hscan
    obtain ⟨scanned, -, hvalue⟩ := hscan
    obtain ⟨rfl, -⟩ := Prod.mk.inj (Except.ok.inj hvalue)
    rfl
  case case3 =>
    intro rest hquote value after hscan
    rw [scanOnce.eq_def] at hscan
    dsimp only at hscan
    rw [if_neg hquote, if_pos rfl] at hscan
    cases hscan
  case case4 =>
    intro rest limit inner hquote empty hempty value after hscan
    rw [scanOnce, if_neg hquote, if_pos rfl] at hscan
    simp only [inner] at hempty
    rw [hempty] at hscan
    obtain ⟨rfl, -⟩ := Prod.mk.inj (Except.ok.inj hscan)
    rfl
  case case5 =>
    intro rest limit inner hquote hnone ih value after hscan
    rw [scanOnce, if_neg hquote, if_pos rfl] at hscan
    simp only [inner] at hnone
    rw [hnone, bind_eq_ok_iff] at hscan
    obtain ⟨⟨items, last⟩, hitems, hvalue⟩ := hscan
    obtain ⟨rfl, -⟩ := Prod.mk.inj (Except.ok.inj hvalue)
    exact ih items last hitems
  case case6 =>
    intro rest hquote hbracket value after hscan
    rw [scanOnce.eq_def] at hscan
    dsimp only at hscan
    rw [if_neg hquote, if_neg hbracket, if_pos rfl] at hscan
    cases hscan
  case case7 =>
    intro rest limit inner hquote hbracket empty hempty value after hscan
    rw [scanOnce, if_neg hquote, if_neg hbracket, if_pos rfl] at hscan
    simp only [inner] at hempty
    rw [hempty] at hscan
    obtain ⟨rfl, -⟩ := Prod.mk.inj (Except.ok.inj hscan)
    rfl
  case case8 =>
    intro rest limit inner hquote hbracket hnone ih value after hscan
    rw [scanOnce, if_neg hquote, if_neg hbracket, if_pos rfl] at hscan
    simp only [inner] at hnone
    rw [hnone, bind_eq_ok_iff] at hscan
    obtain ⟨⟨pairs, last⟩, hpairs, hvalue⟩ := hscan
    obtain ⟨rfl, -⟩ := Prod.mk.inj (Except.ok.inj hvalue)
    exact shortFields_ofPairs (ih pairs last hpairs)
  case case9 =>
    intro limit point rest hquote hbracket hbrace value after hscan
    rw [scanOnce.eq_def] at hscan
    dsimp only at hscan
    rw [if_neg hquote, if_neg hbracket, if_neg hbrace] at hscan
    exact shortIntegers_of_scanScalarPoints hscan
  case case10 =>
    intro limit pairs rest hscan
    simp [parseObject] at hscan
  case case11 =>
    intro limit point rest hquote pairs after hscan
    rw [parseObject, if_pos hquote] at hscan
    cases hscan
  case case12 =>
    intro limit point rest hquote ihValue ihRest pairs after hscan
    rw [parseObject, if_neg hquote, bind_eq_ok_iff] at hscan
    obtain ⟨⟨key, afterKey⟩, -, hscan⟩ := hscan
    dsimp only at hscan
    split at hscan
    · cases hscan
    · next colon _ =>
      rw [bind_eq_ok_iff] at hscan
      obtain ⟨⟨value, afterValue⟩, hvalue, hscan⟩ := hscan
      have hshort := ihValue colon value afterValue hvalue
      dsimp only at hscan
      split at hscan
      · obtain ⟨rfl, -⟩ := Prod.mk.inj (Except.ok.inj hscan)
        simp [Json.shortFields, hshort]
      · split at hscan
        · next comma _ =>
          rw [bind_eq_ok_iff] at hscan
          obtain ⟨⟨others, last⟩, hothers, hpairs⟩ := hscan
          obtain ⟨rfl, -⟩ := Prod.mk.inj (Except.ok.inj hpairs)
          simp [Json.shortFields, hshort, ihRest colon afterValue comma others last hothers]
        · cases hscan
  case case13 =>
    intro limit text ihItem ihRest items after hscan
    rw [parseArray, bind_eq_ok_iff] at hscan
    obtain ⟨⟨item, afterItem⟩, hitem, hscan⟩ := hscan
    have hshort := ihItem item afterItem hitem
    dsimp only at hscan
    split at hscan
    · obtain ⟨rfl, -⟩ := Prod.mk.inj (Except.ok.inj hscan)
      simp [Json.shortItems, hshort]
    · split at hscan
      · next comma _ =>
        rw [bind_eq_ok_iff] at hscan
        obtain ⟨⟨others, last⟩, hothers, hitems⟩ := hscan
        obtain ⟨rfl, -⟩ := Prod.mk.inj (Except.ok.inj hitems)
        simp [Json.shortItems, hshort, ihRest comma others last hothers]
      · cases hscan

theorem shortIntegers_of_loadsBytes [PyRuntime] {limit : ℕ} {bytes : PyBytes}
    {value : Json} (hloads : loadsBytes limit bytes = .ok value) :
    value.shortIntegers = true := by
  rw [loadsBytes] at hloads
  split at hloads
  · cases hloads
  · rw [loadsText, bind_eq_ok_iff] at hloads
    obtain ⟨⟨scanned, rest⟩, hscan, hend⟩ := hloads
    dsimp only at hend
    split_ifs at hend
    obtain rfl := Except.ok.inj hend
    exact shortIntegers_of_scan.1 _ _ _ _ hscan

end Shape

end SsfTransmitter.Python
