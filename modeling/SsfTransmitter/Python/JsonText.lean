import SsfTransmitter.Python.Json

/-!
# JSON text

`json.dumps` with `ensure_ascii=True` and `json.loads`.  The stored columns
hold only strings, lists and dictionaries of text that UTF-8 can encode; on
these the decoder inverts the encoder, whichever separators were used.
-/

namespace SsfTransmitter.Python

/-! ## Writing -/

/-- Four lower-case hexadecimal digits. -/
def hex4 (unit : ℕ) : List Char :=
  [Nat.digitChar (unit / 4096 % 16), Nat.digitChar (unit / 256 % 16),
    Nat.digitChar (unit / 16 % 16), Nat.digitChar (unit % 16)]

def unicodeEscape (unit : ℕ) : List Char :=
  '\\' :: 'u' :: hex4 unit

/-- `ESCAPE_DCT`: the characters with an escape of their own. -/
def shortEscape (point : CodePoint) : Option Char :=
  if point.val = 0x22 then some '"'
  else if point.val = 0x5C then some '\\'
  else if point.val = 0x0A then some 'n'
  else if point.val = 0x0D then some 'r'
  else if point.val = 0x09 then some 't'
  else if point.val = 0x0C then some 'f'
  else if point.val = 0x08 then some 'b'
  else none

/-- One code point inside a JSON string, `ensure_ascii=True`: beyond the basic
plane as the escapes of its two surrogates. -/
def escapeAscii (point : CodePoint) : List Char :=
  match shortEscape point with
  | some escape => ['\\', escape]
  | none =>
    if 32 ≤ point.val ∧ point.val < 127 then [Char.ofNat point.val]
    else if point.val < 0x10000 then unicodeEscape point.val
    else
      unicodeEscape (0xD800 + (point.val - 0x10000) / 0x400) ++
        unicodeEscape (0xDC00 + (point.val - 0x10000) % 0x400)

def dumpsStr (text : PyStr) : List Char :=
  '"' :: text.flatMap escapeAscii ++ ['"']

/-- The item and key separators of `json.dumps`. -/
structure Separators where
  item : List Char
  key : List Char

/-- `separators=(",", ":")` -/
def compactSeparators : Separators := ⟨[','], [':']⟩

/-- The default `separators=(", ", ": ")`. -/
def defaultSeparators : Separators := ⟨[',', ' '], [':', ' ']⟩

/-- How `json.dumps` writes the `repr` of a float. -/
def floatLiteral (text : PyStr) : PyStr :=
  if text = ofString "nan" then "NaN"
  else if text = ofString "inf" then "Infinity"
  else if text = ofString "-inf" then "-Infinity"
  else text

mutual

/-- `json.dumps(value, separators=separators, ensure_ascii=True)` -/
def dumps (separators : Separators) : Json → List Char
  | .null => "null".toList
  | .bool true => "true".toList
  | .bool false => "false".toList
  | .int value => (toString value).toList
  | .float text => (floatLiteral text).map fun point => Char.ofNat point.val
  | .str value => dumpsStr value
  | .list items => '[' :: dumpsItems separators items ++ [']']
  | .dict fields => '\x7b' :: dumpsFields separators fields ++ ['\x7d']

def dumpsItems (separators : Separators) : List Json → List Char
  | [] => []
  | [item] => dumps separators item
  | item :: items =>
    dumps separators item ++ separators.item ++ dumpsItems separators items

def dumpsField (separators : Separators) : PyStr × Json → List Char
  | (key, value) => dumpsStr key ++ separators.key ++ dumps separators value

def dumpsFields (separators : Separators) : List (PyStr × Json) → List Char
  | [] => []
  | [field] => dumpsField separators field
  | field :: fields =>
    dumpsField separators field ++ separators.item ++
      dumpsFields separators fields

end

/-! ## Reading -/

def isJsonSpace (char : Char) : Bool :=
  char == ' ' || char == '\t' || char == '\n' || char == '\r'

def skipSpace (text : List Char) : List Char :=
  text.dropWhile isJsonSpace

def hexValue (char : Char) : Option ℕ :=
  if '0' ≤ char ∧ char ≤ '9' then some (char.toNat - '0'.toNat)
  else if 'a' ≤ char ∧ char ≤ 'f' then some (char.toNat - 'a'.toNat + 10)
  else if 'A' ≤ char ∧ char ≤ 'F' then some (char.toNat - 'A'.toNat + 10)
  else none

/-- The code unit of four hexadecimal digits. -/
def hexUnit (first second third fourth : Char) : Option CodePoint := do
  let first ← hexValue first
  let second ← hexValue second
  let third ← hexValue third
  let fourth ← hexValue fourth
  some (Fin.ofNat 0x110000 (first * 4096 + second * 256 + third * 16 + fourth))

/-- The character that an escape other than `\u` stands for. -/
def unescape (char : Char) : Option Char :=
  match char with
  | '"' => some '"'
  | '\\' => some '\\'
  | '/' => some '/'
  | 'b' => some '\x08'
  | 'f' => some '\x0c'
  | 'n' => some '\n'
  | 'r' => some '\r'
  | 't' => some '\t'
  | _ => none

/-- The code units of a JSON string up to its closing quote, each marked with
whether a `\u` escape wrote it. -/
def scanUnits : List Char → Option (List (Bool × CodePoint) × List Char)
  | [] => none
  | '"' :: rest => some ([], rest)
  | '\\' :: 'u' :: first :: second :: third :: fourth :: rest => do
    let unit ← hexUnit first second third fourth
    let (units, rest) ← scanUnits rest
    some ((true, unit) :: units, rest)
  | '\\' :: escape :: rest => do
    let char ← unescape escape
    let (units, rest) ← scanUnits rest
    some ((false, ofChar char) :: units, rest)
  | char :: rest => do
    -- strict mode: a control character is refused
    if char.toNat < 32 then none
    let (units, rest) ← scanUnits rest
    some ((false, ofChar char) :: units, rest)

def isHighSurrogate (point : CodePoint) : Bool :=
  0xD800 ≤ point.val && point.val ≤ 0xDBFF

def isLowSurrogate (point : CodePoint) : Bool :=
  0xDC00 ≤ point.val && point.val ≤ 0xDFFF

/-- Two adjacent escapes of a high and a low surrogate are one code point. -/
def joinSurrogates : List (Bool × CodePoint) → PyStr
  | [] => []
  | [(_, unit)] => [unit]
  | (escaped, unit) :: (nextEscaped, next) :: rest =>
    if escaped && nextEscaped && isHighSurrogate unit && isLowSurrogate next then
      Fin.ofNat 0x110000
        (0x10000 + (unit.val - 0xD800) * 0x400 + (next.val - 0xDC00)) ::
        joinSurrogates rest
    else unit :: joinSurrogates ((nextEscaped, next) :: rest)

/-- `scanstring`: the text after the opening quote. -/
def scanString (text : List Char) : Option (PyStr × List Char) :=
  (scanUnits text).map fun (units, rest) => (joinSurrogates units, rest)

def takeDigits (text : List Char) : List Char × List Char :=
  text.span Char.isDigit

/-- The integer part of `NUMBER_RE`: no leading zero. -/
def scanInteger (text : List Char) : Option (List Char × List Char) :=
  match text with
  | '0' :: rest => some (['0'], rest)
  | _ =>
    let (digits, rest) := takeDigits text
    if digits.isEmpty then none else some (digits, rest)

/-- The fraction of `NUMBER_RE`, empty when absent. -/
def scanFraction (text : List Char) : List Char × List Char :=
  match text with
  | '.' :: rest =>
    let (digits, after) := takeDigits rest
    if digits.isEmpty then ([], text) else ('.' :: digits, after)
  | _ => ([], text)

/-- The exponent of `NUMBER_RE`, empty when absent. -/
def scanExponent (text : List Char) : List Char × List Char :=
  match text with
  | marker :: rest =>
    if marker ≠ 'e' ∧ marker ≠ 'E' then ([], text)
    else
      let (sign, unsigned) := match rest with
        | '-' :: after => (['-'], after)
        | '+' :: after => (['+'], after)
        | _ => ([], rest)
      let (digits, after) := takeDigits unsigned
      if digits.isEmpty then ([], text)
      else (marker :: sign ++ digits, after)
  | [] => ([], [])

/-- A number: an integer of at most 4300 digits, CPython's limit, or a float. -/
def scanNumber [runtime : PyRuntime] (text : List Char) :
    Option (Json × List Char) := do
  let (negative, unsigned) := match text with
    | '-' :: rest => (true, rest)
    | _ => (false, text)
  let (digits, rest) ← scanInteger unsigned
  let (fraction, rest) := scanFraction rest
  let (exponent, rest) := scanExponent rest
  if fraction.isEmpty && exponent.isEmpty then
    if 4300 < digits.length then none
    else
      let magnitude := digits.foldl
        (fun value digit => 10 * value + (digit.toNat - '0'.toNat)) 0
      some (.int (if negative then -(magnitude : ℤ) else magnitude), rest)
  else
    let sign := if negative then ['-'] else []
    some (.float (runtime.floatRepr
      ((sign ++ digits ++ fraction ++ exponent).map ofChar)), rest)

/-- The constants of JSON and of CPython's decoder, then numbers. -/
def scanScalar [PyRuntime] (text : List Char) : Option (Json × List Char) :=
  if "null".toList <+: text then some (.null, text.drop 4)
  else if "true".toList <+: text then some (.bool true, text.drop 4)
  else if "false".toList <+: text then some (.bool false, text.drop 5)
  else if "NaN".toList <+: text then some (.float "nan", text.drop 3)
  else if "Infinity".toList <+: text then some (.float "inf", text.drop 8)
  else if "-Infinity".toList <+: text then some (.float "-inf", text.drop 9)
  else scanNumber text

/-- `dict(pairs)`: of two equal keys the first place and the last value. -/
def ofPairs (pairs : List (PyStr × Json)) : Dict :=
  pairs.foldl (fun fields pair => Dict.set fields pair.1 pair.2) []

mutual

/-- `scan_once`, with fuel for the nesting; `loads` supplies enough. -/
def scanValue [PyRuntime] : ℕ → List Char → Option (Json × List Char)
  | 0, _ => none
  | _ + 1, '"' :: rest =>
    (scanString rest).map fun (text, rest) => (.str text, rest)
  | fuel + 1, '[' :: rest =>
    match skipSpace rest with
    | ']' :: rest => some (.list [], rest)
    | rest => (scanItems fuel rest).map fun (items, rest) => (.list items, rest)
  | fuel + 1, '\x7b' :: rest =>
    match skipSpace rest with
    | '\x7d' :: rest => some (.dict [], rest)
    | rest => (scanFields fuel rest).map fun (pairs, rest) =>
        (.dict (ofPairs pairs), rest)
  | _ + 1, text => scanScalar text

def scanItems [PyRuntime] : ℕ → List Char → Option (List Json × List Char)
  | 0, _ => none
  | fuel + 1, text => do
    let (item, rest) ← scanValue fuel text
    match skipSpace rest with
    | ']' :: rest => some ([item], rest)
    | ',' :: rest =>
      let (items, rest) ← scanItems fuel (skipSpace rest)
      some (item :: items, rest)
    | _ => none

def scanFields [PyRuntime] :
    ℕ → List Char → Option (List (PyStr × Json) × List Char)
  | 0, _ => none
  | fuel + 1, '"' :: text => do
    let (key, rest) ← scanString text
    match skipSpace rest with
    | ':' :: rest =>
      let (value, rest) ← scanValue fuel (skipSpace rest)
      match skipSpace rest with
      | '\x7d' :: rest => some ([(key, value)], rest)
      | ',' :: rest =>
        let (fields, rest) ← scanFields fuel (skipSpace rest)
        some ((key, value) :: fields, rest)
      | _ => none
    | _ => none
  | _ + 1, _ => none

end

/-- `json.loads(text)`; `none` is `json.JSONDecodeError`. -/
def loads [PyRuntime] (text : List Char) : Option Json :=
  match scanValue (text.length + 1) (skipSpace text) with
  | some (value, rest) => if (skipSpace rest).isEmpty then some value else none
  | none => none

/-! ## Strings survive the round trip -/

theorem hexValue_digitChar (digit : ℕ) (hdigit : digit < 16) :
    hexValue (Nat.digitChar digit) = some digit := by
  interval_cases digit <;> decide

theorem hexUnit_hex4 (unit : ℕ) (hunit : unit < 0x10000) :
    hexUnit (Nat.digitChar (unit / 4096 % 16)) (Nat.digitChar (unit / 256 % 16))
        (Nat.digitChar (unit / 16 % 16)) (Nat.digitChar (unit % 16)) =
      some (Fin.ofNat 0x110000 unit) := by
  have hdigit : ∀ value : ℕ, value % 16 < 16 := fun value =>
    Nat.mod_lt value (by omega)
  simp only [hexUnit, hexValue_digitChar _ (hdigit _), Option.bind_eq_bind,
    Option.bind_some, Option.some.injEq]
  congr 1
  omega

/-- The marked code units that reading one written code point yields. -/
def unitsOf (point : CodePoint) : List (Bool × CodePoint) :=
  if (shortEscape point).isSome ∨ (32 ≤ point.val ∧ point.val < 127) then
    [(false, point)]
  else if point.val < 0x10000 then [(true, point)]
  else
    [(true, Fin.ofNat 0x110000 (0xD800 + (point.val - 0x10000) / 0x400)),
      (true, Fin.ofNat 0x110000 (0xDC00 + (point.val - 0x10000) % 0x400))]

private theorem scanUnits_unicodeEscape (unit : ℕ) (hunit : unit < 0x10000)
    (text : List Char) :
    scanUnits (unicodeEscape unit ++ text) =
      (scanUnits text).map fun (units, rest) =>
        ((true, Fin.ofNat 0x110000 unit) :: units, rest) := by
  simp only [unicodeEscape, hex4, List.cons_append, List.nil_append, scanUnits,
    hexUnit_hex4 unit hunit]
  cases scanUnits text <;> rfl

private theorem scanUnits_printable (char : Char) (text : List Char)
    (hquote : char ≠ '"') (hslash : char ≠ '\\') (hcontrol : 32 ≤ char.toNat) :
    scanUnits (char :: text) =
      (scanUnits text).map fun (units, rest) =>
        ((false, ofChar char) :: units, rest) := by
  rw [scanUnits]
  · rw [if_neg (by omega)]
    cases scanUnits text <;> rfl
  · exact fun heq => hquote heq
  · exact fun _ _ _ _ _ heq => absurd heq hslash
  · exact fun _ _ heq => absurd heq hslash

theorem unescape_shortEscape {point : CodePoint} {escape : Char}
    (hescape : shortEscape point = some escape) :
    escape ≠ 'u' ∧ ∃ char, unescape escape = some char ∧ ofChar char = point := by
  unfold shortEscape at hescape
  split_ifs at hescape with h0 h1 h2 h3 h4 h5 h6 <;>
    · obtain rfl := (Option.some.inj hescape).symm
      refine ⟨by decide, _, rfl, Fin.ext ?_⟩
      rw [‹point.val = _›]
      rfl

private theorem scanUnits_shortEscape {escape char : Char}
    (hescape : escape ≠ 'u') (hchar : unescape escape = some char)
    (text : List Char) :
    scanUnits ('\\' :: escape :: text) =
      (scanUnits text).map fun (units, rest) =>
        ((false, ofChar char) :: units, rest) := by
  rw [scanUnits, hchar]
  · cases scanUnits text <;> rfl
  · exact fun _ _ _ _ _ heq => absurd heq hescape

/-- Reading what was written for one code point. -/
theorem scanUnits_escapeAscii (point : CodePoint) (text : List Char) :
    scanUnits (escapeAscii point ++ text) =
      (scanUnits text).map fun (units, rest) =>
        (unitsOf point ++ units, rest) := by
  unfold escapeAscii unitsOf
  rcases hshort : shortEscape point with _ | escape
  · dsimp only
    by_cases hprintable : 32 ≤ point.val ∧ point.val < 127
    · have hchar := ofChar_ofNat (isSurrogate_eq_false_iff.mpr
        (Or.inl (hprintable.2.trans (by decide))))
      have hval : (Char.ofNat point.val).toNat = point.val :=
        congrArg Fin.val hchar
      have hplain : point.val ≠ 0x22 ∧ point.val ≠ 0x5C := by
        refine ⟨fun heq => ?_, fun heq => ?_⟩ <;>
          simp [shortEscape, heq] at hshort
      rw [if_pos hprintable, if_pos (Or.inr hprintable), List.singleton_append,
        scanUnits_printable, hchar]
      · rfl
      · rintro heq
        rw [heq] at hval
        exact hplain.1 hval.symm
      · rintro heq
        rw [heq] at hval
        exact hplain.2 hval.symm
      · omega
    · by_cases hbasic : point.val < 0x10000
      · rw [if_neg hprintable, if_pos hbasic, if_neg (by simpa using hprintable),
          if_pos hbasic, scanUnits_unicodeEscape _ hbasic]
        have hpoint : Fin.ofNat 0x110000 point.val = point := by
          apply Fin.ext
          simp only [Fin.ofNat]
          omega
        rw [hpoint]
        rfl
      · have hlt := point.isLt
        rw [if_neg hprintable, if_neg hbasic, if_neg (by simpa using hprintable),
          if_neg hbasic, List.append_assoc, scanUnits_unicodeEscape _ (by omega),
          scanUnits_unicodeEscape _ (by omega)]
        cases scanUnits text <;> rfl
  · obtain ⟨hescape, char, hchar, hpoint⟩ := unescape_shortEscape hshort
    simp only [Option.isSome_some, true_or, if_true, List.cons_append,
      List.nil_append]
    rw [scanUnits_shortEscape hescape hchar, hpoint]

theorem scanUnits_flatMap_escapeAscii (value : PyStr) (text : List Char) :
    scanUnits (value.flatMap escapeAscii ++ '"' :: text) =
      some (value.flatMap unitsOf, text) := by
  induction value with
  | nil => rfl
  | cons point value ih =>
      rw [List.flatMap_cons, List.append_assoc, scanUnits_escapeAscii, ih]
      rfl

private theorem joinSurrogates_cons (escaped : Bool) {point : CodePoint}
    (hpoint : isSurrogate point = false) (units : List (Bool × CodePoint)) :
    joinSurrogates ((escaped, point) :: units) = point :: joinSurrogates units := by
  rcases units with _ | ⟨⟨nextEscaped, next⟩, rest⟩
  · rfl
  · have hhigh : isHighSurrogate point = false := by
      rw [isSurrogate_eq_false_iff] at hpoint
      simp only [isHighSurrogate, Bool.and_eq_false_iff, decide_eq_false_iff_not]
      omega
    rw [joinSurrogates, hhigh]
    simp

private theorem joinSurrogates_pair (point : CodePoint)
    (hpoint : 0x10000 ≤ point.val) (units : List (Bool × CodePoint)) :
    joinSurrogates
        ((true, Fin.ofNat 0x110000 (0xD800 + (point.val - 0x10000) / 0x400)) ::
          (true, Fin.ofNat 0x110000 (0xDC00 + (point.val - 0x10000) % 0x400)) ::
          units) =
      point :: joinSurrogates units := by
  have hlt := point.isLt
  have hjoined : Fin.ofNat 0x110000
      (0x10000 + ((Fin.ofNat 0x110000 (0xD800 + (point.val - 0x10000) / 0x400)).val -
          0xD800) * 0x400 +
        ((Fin.ofNat 0x110000 (0xDC00 + (point.val - 0x10000) % 0x400)).val -
          0xDC00)) = point := by
    apply Fin.ext
    simp only [Fin.val_ofNat]
    omega
  have hhigh : isHighSurrogate
      (Fin.ofNat 0x110000 (0xD800 + (point.val - 0x10000) / 0x400)) = true := by
    simp only [isHighSurrogate, Bool.and_eq_true, decide_eq_true_eq, Fin.val_ofNat]
    omega
  have hlow : isLowSurrogate
      (Fin.ofNat 0x110000 (0xDC00 + (point.val - 0x10000) % 0x400)) = true := by
    simp only [isLowSurrogate, Bool.and_eq_true, decide_eq_true_eq, Fin.val_ofNat]
    omega
  rw [joinSurrogates, hhigh, hlow, if_pos (by rfl), hjoined]

/-- A pair is joined only where the two escapes of one code point stand. -/
theorem joinSurrogates_unitsOf (value : PyStr) (hvalue : encodable value = true) :
    joinSurrogates (value.flatMap unitsOf) = value := by
  induction value with
  | nil => rfl
  | cons point value ih =>
      simp only [encodable, List.all_cons, Bool.and_eq_true,
        Bool.not_eq_true'] at hvalue
      obtain ⟨hpoint, hrest⟩ := hvalue
      have hih := ih hrest
      rw [List.flatMap_cons, unitsOf]
      split_ifs with hplain hbasic
      · rw [List.singleton_append, joinSurrogates_cons false hpoint, hih]
      · rw [List.singleton_append, joinSurrogates_cons true hpoint, hih]
      · simp only [List.cons_append, List.nil_append]
        rw [joinSurrogates_pair point (by omega), hih]

/-- A written string is read back, from inside its opening quote. -/
theorem scanString_flatMap_escapeAscii (value : PyStr)
    (hvalue : encodable value = true) (text : List Char) :
    scanString (value.flatMap escapeAscii ++ '"' :: text) =
      some (value, text) := by
  simp only [scanString, scanUnits_flatMap_escapeAscii, Option.map_some,
    joinSurrogates_unitsOf value hvalue]

/-! ## Values survive the round trip -/

/-- Values of encodable text: what the stored columns hold. -/
inductive Textual : Json → Prop where
  | str {value : PyStr} (hvalue : encodable value = true) : Textual (.str value)
  | list {items : List Json} (hitems : ∀ item ∈ items, Textual item) :
      Textual (.list items)
  | dict {fields : Dict} (hkeys : Dict.WellFormed fields)
      (hencodable : ∀ field ∈ fields, encodable field.1 = true)
      (hvalues : ∀ field ∈ fields, Textual field.2) : Textual (.dict fields)

/-- Separators that the reader skips: the mark, then JSON white space. -/
structure Separators.Standard (separators : Separators) : Prop where
  item : ∃ spaces, separators.item = ',' :: spaces ∧
    ∀ char ∈ spaces, isJsonSpace char = true
  key : ∃ spaces, separators.key = ':' :: spaces ∧
    ∀ char ∈ spaces, isJsonSpace char = true

theorem standard_compactSeparators : compactSeparators.Standard :=
  ⟨⟨[], rfl, by simp⟩, ⟨[], rfl, by simp⟩⟩

theorem standard_defaultSeparators : defaultSeparators.Standard :=
  ⟨⟨[' '], rfl, by simp [isJsonSpace]⟩, ⟨[' '], rfl, by simp [isJsonSpace]⟩⟩

/-- Text that starts with the first character of a textual value. -/
def StartsValue (text : List Char) : Prop :=
  ∃ char rest, text = char :: rest ∧
    (char = '"' ∨ char = '[' ∨ char = '\x7b')

theorem StartsValue.append {text : List Char} (hstarts : StartsValue text)
    (suffix : List Char) : StartsValue (text ++ suffix) := by
  obtain ⟨char, rest, rfl, hchar⟩ := hstarts
  exact ⟨char, rest ++ suffix, rfl, hchar⟩

theorem skipSpace_cons (char : Char) (hchar : isJsonSpace char = false)
    (rest : List Char) : skipSpace (char :: rest) = char :: rest := by
  simp [skipSpace, hchar]

theorem StartsValue.skipSpace_eq {text : List Char} (hstarts : StartsValue text) :
    skipSpace text = text := by
  obtain ⟨char, rest, rfl, rfl | rfl | rfl⟩ := hstarts <;>
    exact skipSpace_cons _ (by decide) rest

theorem StartsValue.skipSpace_append {spaces text : List Char}
    (hstarts : StartsValue text)
    (hspaces : ∀ char ∈ spaces, isJsonSpace char = true) :
    skipSpace (spaces ++ text) = text := by
  rw [skipSpace, List.dropWhile_append_of_pos hspaces]
  exact hstarts.skipSpace_eq

theorem startsValue_dumpsStr (value : PyStr) : StartsValue (dumpsStr value) :=
  ⟨'"', _, rfl, Or.inl rfl⟩

theorem startsValue_dumps (separators : Separators) {value : Json}
    (hvalue : Textual value) : StartsValue (dumps separators value) := by
  cases hvalue with
  | str _ => exact ⟨'"', _, by rw [dumps]; rfl, by simp⟩
  | list _ => exact ⟨'[', _, by rw [dumps]; rfl, by simp⟩
  | dict _ _ _ => exact ⟨'\x7b', _, by rw [dumps]; rfl, by simp⟩

theorem dumpsItems_cons (separators : Separators) (item next : Json)
    (items : List Json) :
    dumpsItems separators (item :: next :: items) =
      dumps separators item ++ separators.item ++
        dumpsItems separators (next :: items) := by
  simp [dumpsItems]

theorem dumpsFields_cons (separators : Separators) (field next : PyStr × Json)
    (fields : List (PyStr × Json)) :
    dumpsFields separators (field :: next :: fields) =
      dumpsField separators field ++ separators.item ++
        dumpsFields separators (next :: fields) := by
  simp [dumpsFields]

theorem startsValue_dumpsItems (separators : Separators) {item : Json}
    (items : List Json) (hitem : Textual item) :
    StartsValue (dumpsItems separators (item :: items)) := by
  rcases items with _ | ⟨next, items⟩
  · simpa [dumpsItems] using startsValue_dumps _ hitem
  · rw [dumpsItems_cons, List.append_assoc]
    exact (startsValue_dumps _ hitem).append _

theorem startsValue_dumpsFields (separators : Separators)
    (field : PyStr × Json) (fields : List (PyStr × Json)) :
    StartsValue (dumpsFields separators (field :: fields)) := by
  have hfield : StartsValue (dumpsField separators field) := by
    rw [dumpsField, List.append_assoc]
    exact (startsValue_dumpsStr field.1).append _
  rcases fields with _ | ⟨next, fields⟩
  · simpa [dumpsFields] using hfield
  · rw [dumpsFields_cons, List.append_assoc]
    exact hfield.append _

theorem ofPairs_of_wellFormed (fields : Dict) (hfields : Dict.WellFormed fields) :
    ofPairs fields = fields := by
  have hfold : ∀ (done todo : Dict), Dict.WellFormed (done ++ todo) →
      todo.foldl (fun fields pair => Dict.set fields pair.1 pair.2) done =
        done ++ todo := by
    intro done todo
    induction todo generalizing done with
    | nil => simp
    | cons field todo ih =>
        intro hall
        have hfresh : field.1 ∉ done.map Prod.fst := by
          have hnodup := hall
          rw [Dict.WellFormed, List.map_append, List.map_cons] at hnodup
          exact fun hmem => (List.nodup_append.mp hnodup).2.2 _ hmem _
            List.mem_cons_self rfl
        rw [List.foldl_cons, Dict.set, if_neg hfresh, ih, List.append_assoc,
          List.singleton_append]
        simpa using hall
  simpa [ofPairs] using hfold [] fields (by simpa using hfields)

section RoundTrip

variable [PyRuntime] {separators : Separators} (hseparators : separators.Standard)

/-- With fuel beyond its length, a written value is read back, and a non-empty
body of a list or a dictionary up to its closing bracket. -/
private def ReadsBack (separators : Separators) (fuel : ℕ) : Prop :=
  (∀ value rest, Textual value → (dumps separators value).length ≤ fuel →
    scanValue fuel (dumps separators value ++ rest) = some (value, rest)) ∧
  (∀ item items rest, (∀ value ∈ item :: items, Textual value) →
    (dumpsItems separators (item :: items)).length + 1 ≤ fuel →
    scanItems fuel (dumpsItems separators (item :: items) ++ ']' :: rest) =
      some (item :: items, rest)) ∧
  (∀ field fields rest, (∀ pair ∈ field :: fields, encodable pair.1 = true) →
    (∀ pair ∈ field :: fields, Textual pair.2) →
    (dumpsFields separators (field :: fields)).length + 1 ≤ fuel →
    scanFields fuel (dumpsFields separators (field :: fields) ++ '\x7d' :: rest) =
      some (field :: fields, rest))

omit hseparators in
private theorem readsBack_zero : ReadsBack separators 0 := by
  refine ⟨fun value rest hvalue hlength => ?_, fun _ _ _ _ hlength => ?_,
    fun _ _ _ _ _ hlength => ?_⟩
  · obtain ⟨char, tail, htext, -⟩ := startsValue_dumps separators hvalue
    simp [htext] at hlength
  · omega
  · omega

omit hseparators in
private theorem readsBack_str (fuel : ℕ) {value : PyStr}
    (hvalue : encodable value = true) (rest : List Char) :
    scanValue (fuel + 1) (dumpsStr value ++ rest) = some (.str value, rest) := by
  simp only [dumpsStr, List.cons_append, List.append_assoc, List.nil_append,
    scanValue, scanString_flatMap_escapeAscii value hvalue, Option.map_some]

omit hseparators in
private theorem readsBack_list {fuel : ℕ} (hfuel : ReadsBack separators fuel)
    {items : List Json} (hitems : ∀ item ∈ items, Textual item)
    (rest : List Char)
    (hlength : (dumps separators (.list items)).length ≤ fuel + 1) :
    scanValue (fuel + 1) (dumps separators (.list items) ++ rest) =
      some (.list items, rest) := by
  rcases items with _ | ⟨item, items⟩
  · simp [dumps, dumpsItems, scanValue, skipSpace_cons ']' (by decide)]
  · have hbody := hfuel.2.1 item items rest hitems (by
      simp only [dumps, List.length_append, List.length_cons, List.length_nil]
        at hlength
      omega)
    have hstarts := (startsValue_dumpsItems separators items
      (hitems item List.mem_cons_self)).append (']' :: rest)
    simp only [dumps, List.cons_append, List.append_assoc, List.nil_append,
      scanValue, hstarts.skipSpace_eq]
    split
    · next heq =>
      obtain ⟨char, tail, htext, hchar⟩ := hstarts
      rw [htext] at heq
      obtain rfl := (List.cons.inj heq).1
      simp at hchar
    · rw [hbody]
      rfl

omit hseparators in
private theorem readsBack_dict {fuel : ℕ} (hfuel : ReadsBack separators fuel)
    {fields : Dict} (hkeys : Dict.WellFormed fields)
    (hencodable : ∀ field ∈ fields, encodable field.1 = true)
    (hvalues : ∀ field ∈ fields, Textual field.2) (rest : List Char)
    (hlength : (dumps separators (.dict fields)).length ≤ fuel + 1) :
    scanValue (fuel + 1) (dumps separators (.dict fields) ++ rest) =
      some (.dict fields, rest) := by
  rcases fields with _ | ⟨field, fields⟩
  · simp [dumps, dumpsFields, scanValue,
      skipSpace_cons '\x7d' (by decide)]
  · have hbody := hfuel.2.2 field fields rest hencodable hvalues (by
      simp only [dumps, List.length_append, List.length_cons, List.length_nil]
        at hlength
      omega)
    have hstarts := (startsValue_dumpsFields separators field
      fields).append ('\x7d' :: rest)
    simp only [dumps, List.cons_append, List.append_assoc, List.nil_append,
      scanValue, hstarts.skipSpace_eq]
    split
    · next heq =>
      obtain ⟨char, tail, htext, hchar⟩ := hstarts
      rw [htext] at heq
      obtain rfl := (List.cons.inj heq).1
      simp at hchar
    · rw [hbody]
      simp [ofPairs_of_wellFormed _ hkeys]

include hseparators in
private theorem readsBack_items {fuel : ℕ} (hfuel : ReadsBack separators fuel)
    (item : Json) (items : List Json) (rest : List Char)
    (hitems : ∀ value ∈ item :: items, Textual value)
    (hlength : (dumpsItems separators (item :: items)).length ≤ fuel) :
    scanItems (fuel + 1) (dumpsItems separators (item :: items) ++ ']' :: rest) =
      some (item :: items, rest) := by
  have hitem := hitems item List.mem_cons_self
  rcases items with _ | ⟨next, items⟩
  · simp only [dumpsItems] at hlength ⊢
    simp [scanItems, hfuel.1 item (']' :: rest) hitem hlength,
      skipSpace_cons ']' (by decide)]
  · obtain ⟨spaces, hmark, hspaces⟩ := hseparators.item
    have htail : ∀ value ∈ next :: items, Textual value := fun value hvalue =>
      hitems value (List.mem_cons_of_mem _ hvalue)
    rw [dumpsItems_cons, hmark] at hlength ⊢
    simp only [List.length_append, List.length_cons] at hlength
    have hstarts := (startsValue_dumpsItems separators items
      (htail next List.mem_cons_self)).append (']' :: rest)
    have hbody := hfuel.2.1 next items rest htail (by omega)
    rw [List.append_assoc, List.append_assoc, List.cons_append, scanItems,
      hfuel.1 item _ hitem (by omega)]
    simp [skipSpace_cons ',' (by decide),
      hstarts.skipSpace_append hspaces, hbody]

include hseparators in
private theorem readsBack_fields {fuel : ℕ} (hfuel : ReadsBack separators fuel)
    (field : PyStr × Json) (fields : List (PyStr × Json)) (rest : List Char)
    (hencodable : ∀ pair ∈ field :: fields, encodable pair.1 = true)
    (hvalues : ∀ pair ∈ field :: fields, Textual pair.2)
    (hlength : (dumpsFields separators (field :: fields)).length ≤ fuel) :
    scanFields (fuel + 1)
        (dumpsFields separators (field :: fields) ++ '\x7d' :: rest) =
      some (field :: fields, rest) := by
  obtain ⟨key, value⟩ := field
  have hkey := hencodable _ List.mem_cons_self
  have hvalue := hvalues _ List.mem_cons_self
  obtain ⟨keySpaces, hkeyMark, hkeySpaces⟩ := hseparators.key
  have hstarts := startsValue_dumps separators hvalue
  -- the key, its mark and the value, whatever follows the value
  have hfield : ∀ text,
      scanFields (fuel + 1) (dumpsField separators (key, value) ++ text) =
        (scanValue fuel (dumps separators value ++ text)).bind fun (value, rest) =>
          match skipSpace rest with
          | '\x7d' :: rest => some ([(key, value)], rest)
          | ',' :: rest => (scanFields fuel (skipSpace rest)).bind
              fun (fields, rest) => some ((key, value) :: fields, rest)
          | _ => none := by
    intro text
    simp only [dumpsField, dumpsStr, hkeyMark, List.cons_append,
      List.append_assoc, List.nil_append, scanFields,
      scanString_flatMap_escapeAscii key hkey, Option.bind_eq_bind,
      Option.bind_some, skipSpace_cons ':' (by decide),
      (hstarts.append text).skipSpace_append hkeySpaces]
  rcases fields with _ | ⟨next, fields⟩
  · simp only [dumpsFields, dumpsField, List.length_append] at hlength ⊢
    have hscan := hfield ('\x7d' :: rest)
    rw [hfuel.1 value _ hvalue (by omega)] at hscan
    simpa [dumpsField, skipSpace_cons '\x7d' (by decide)] using hscan
  · obtain ⟨spaces, hmark, hspaces⟩ := hseparators.item
    rw [dumpsFields_cons, hmark] at hlength ⊢
    simp only [dumpsField, List.length_append, List.length_cons] at hlength
    have hstartsFields := (startsValue_dumpsFields separators
      next fields).append ('\x7d' :: rest)
    have hbody := hfuel.2.2 next fields rest
      (fun pair hpair => hencodable pair (List.mem_cons_of_mem _ hpair))
      (fun pair hpair => hvalues pair (List.mem_cons_of_mem _ hpair)) (by omega)
    rw [List.append_assoc, List.append_assoc, hfield, List.cons_append,
      hfuel.1 value _ hvalue (by omega)]
    simp [skipSpace_cons ',' (by decide),
      hstartsFields.skipSpace_append hspaces, hbody]

include hseparators in
private theorem readsBack (fuel : ℕ) : ReadsBack separators fuel := by
  induction fuel with
  | zero => exact readsBack_zero
  | succ fuel ih =>
      refine ⟨fun value rest hvalue hlength => ?_,
        fun item items rest hitems hlength =>
          readsBack_items hseparators ih item items rest hitems (by omega),
        fun field fields rest hencodable hvalues hlength =>
          readsBack_fields hseparators ih field fields rest hencodable hvalues
            (by omega)⟩
      cases hvalue with
      | str hvalue =>
        rw [dumps]
        exact readsBack_str fuel hvalue rest
      | list hitems => exact readsBack_list ih hitems rest hlength
      | dict hkeys hencodable hvalues =>
        exact readsBack_dict ih hkeys hencodable hvalues rest hlength

include hseparators in
/-- `json.loads(json.dumps(value)) == value` for the values that are stored. -/
theorem loads_dumps {value : Json} (hvalue : Textual value) :
    loads (dumps separators value) = some value := by
  have hscan := (readsBack hseparators ((dumps separators value).length + 1)).1
    value [] hvalue (by omega)
  rw [List.append_nil] at hscan
  rw [loads, (startsValue_dumps _ hvalue).skipSpace_eq, hscan]
  rfl

end RoundTrip

end SsfTransmitter.Python
