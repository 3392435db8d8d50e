import SsfTransmitter.Python.JsonDecoder

/-!
# Text inside URLs

`json.dumps` of a string with `ensure_ascii=False`, and `urllib.parse.quote`
with no character but the unreserved ones left as it is.  Each is undone by its
decoder.
-/

namespace SsfTransmitter.Python

/-! ## String literals -/

/-- One code point inside a JSON string, `ensure_ascii=False`. -/
def escapePlain (point : CodePoint) : PyStr :=
  match shortEscape point with
  | some escape => [ofChar '\\', ofChar escape]
  | none =>
    if point.val < 32 then (unicodeEscape point.val).map ofChar
    else [point]

/-- `json.dumps(text, ensure_ascii=False)` -/
def dumpsPlain (text : PyStr) : PyStr :=
  ofChar '"' :: text.flatMap escapePlain ++ [ofChar '"']

/-- The marked code unit that reading one written code point yields. -/
def plainUnit (point : CodePoint) : Bool × CodePoint :=
  ((shortEscape point).isNone && point.val < 32, point)

theorem asciiChar_ofChar {char : Char} (hchar : char.toNat < 128) :
    asciiChar (ofChar char) = char := by
  rw [asciiChar]
  exact (if_pos hchar).trans (Char.ofNat_toNat char)

theorem digitChar_lt (digit : ℕ) : (Nat.digitChar (digit % 16)).toNat < 128 := by
  have hdigit : digit % 16 < 16 := Nat.mod_lt _ (by omega)
  interval_cases digit % 16 <;> decide

/-- A literal point is read as it stands. -/
theorem scanUnitPoints_literal {point : CodePoint} (rest : PyStr)
    (hshort : shortEscape point = none) (hcontrol : ¬point.val < 32) :
    scanUnitPoints (point :: rest) =
      (scanUnitPoints rest).map fun scanned => ((false, point) :: scanned.1, scanned.2) := by
  have hquote : point ≠ ofChar '"' := by
    rintro rfl
    exact absurd hshort (by decide)
  have hslash : point ≠ ofChar '\\' := by
    rintro rfl
    exact absurd hshort (by decide)
  rw [scanUnitPoints.eq_def]
  dsimp only
  rw [if_neg hquote, if_neg hslash, if_neg hcontrol]
  rcases scanUnitPoints rest with _ | scanned <;> rfl

/-- Reading what was written for one code point. -/
theorem scanUnitPoints_escapePlain (point : CodePoint) (rest : PyStr) :
    scanUnitPoints (escapePlain point ++ rest) =
      (scanUnitPoints rest).map fun scanned =>
        (plainUnit point :: scanned.1, scanned.2) := by
  rw [escapePlain, plainUnit]
  rcases hshort : shortEscape point with _ | escape
  · dsimp only
    by_cases hcontrol : point.val < 32
    · have hunit : point.val < 0x10000 := hcontrol.trans (by decide)
      have hpoint : Fin.ofNat 0x110000 point.val = point :=
        Fin.ext (Nat.mod_eq_of_lt point.isLt)
      simp only [if_pos hcontrol, unicodeEscape, hex4, List.map_cons, List.map_nil,
        List.cons_append, List.nil_append]
      rw [scanUnitPoints.eq_def]
      dsimp only
      rw [if_neg (by decide), if_pos rfl, if_pos rfl, asciiChar_ofChar (digitChar_lt _),
        asciiChar_ofChar (digitChar_lt _), asciiChar_ofChar (digitChar_lt _),
        asciiChar_ofChar (digitChar_lt _), hexUnit_hex4 point.val hunit, hpoint]
      simp only [hcontrol]
      rcases scanUnitPoints rest with _ | scanned <;> rfl
    · rw [if_neg hcontrol, List.singleton_append, scanUnitPoints_literal rest hshort hcontrol]
      simp only [hcontrol]
      rfl
  · obtain ⟨hescape, char, hchar, hpoint⟩ := unescape_shortEscape hshort
    have hunicode : ofChar escape ≠ ofChar 'u' := fun heq => hescape (ofChar_injective heq)
    have hascii : escape.toNat < 128 := by
      unfold shortEscape at hshort
      split_ifs at hshort <;>
        · obtain rfl := Option.some.inj hshort
          decide
    dsimp only
    rw [List.cons_append, List.singleton_append, scanUnitPoints.eq_def]
    dsimp only
    rw [if_neg (by decide), if_pos rfl, if_neg hunicode, asciiChar_ofChar hascii, hchar]
    rcases scanUnitPoints rest with _ | scanned
    · rfl
    · simp [hpoint]

theorem scanUnitPoints_plain (text rest : PyStr) :
    scanUnitPoints (text.flatMap escapePlain ++ ofChar '"' :: rest) =
      some (text.map plainUnit, rest) := by
  induction text with
  | nil =>
      rw [List.flatMap_nil, List.nil_append, scanUnitPoints.eq_def]
      rfl
  | cons point text ih =>
      rw [List.flatMap_cons, List.append_assoc, scanUnitPoints_escapePlain, ih]
      rfl

/-- Units of which no escape wrote a surrogate stay apart. -/
theorem joinSurrogates_of_clear {units : List (Bool × CodePoint)}
    (hunits : ∀ unit ∈ units, unit.1 = true → isHighSurrogate unit.2 = false) :
    joinSurrogates units = units.map Prod.snd := by
  fun_induction joinSurrogates units with
  | case1 => rfl
  | case2 => rfl
  | case3 escaped unit nextEscaped next rest hjoin _ =>
      simp only [Bool.and_eq_true] at hjoin
      have hclear := hunits _ List.mem_cons_self hjoin.1.1.1
      rw [hjoin.1.2] at hclear
      cases hclear
  | case4 escaped unit nextEscaped next rest _ ih =>
      rw [ih fun other hother => hunits other (List.mem_cons_of_mem _ hother)]
      rfl

theorem scanStringPoints_eq {text rest : PyStr} {units : List (Bool × CodePoint)}
    (hscan : scanUnitPoints text = some (units, rest)) :
    scanStringPoints text =
      .ok (joinSurrogates units, ⟨rest, length_scanUnitPoints_lt hscan⟩) := by
  rw [scanStringPoints]
  split
  · next others left hothers =>
    obtain ⟨rfl, rfl⟩ := Prod.mk.inj (Option.some.inj (hothers.symm.trans hscan))
    rfl
  · next hnone =>
    rw [hscan] at hnone
    cases hnone

/-- A string literal is scanned up to its closing quote. -/
theorem scanOnce_dumpsPlain [PyRuntime] (limit : ℕ) (text : PyStr) :
    scanOnce limit (dumpsPlain text) =
      .ok (.str text, ⟨[], List.length_pos_of_mem List.mem_cons_self⟩) := by
  have hscan := scanUnitPoints_plain text []
  have hjoin : joinSurrogates (text.map plainUnit) = text := by
    rw [joinSurrogates_of_clear, List.map_map]
    · exact List.map_id text
    · intro unit hunit hescaped
      obtain ⟨point, -, rfl⟩ := List.mem_map.mp hunit
      simp only [plainUnit, Bool.and_eq_true, decide_eq_true_eq] at hescaped
      have hcontrol : ¬0xD800 ≤ point.val := by omega
      rw [plainUnit, isHighSurrogate, Bool.and_eq_false_iff]
      exact Or.inl (decide_eq_false hcontrol)
  change scanOnce limit (ofChar '"' :: (text.flatMap escapePlain ++ [ofChar '"'])) = _
  rw [scanOnce.eq_def]
  dsimp only
  rw [if_pos rfl, scanStringPoints_eq hscan, hjoin]
  rfl

/-- The decoder reads a written string back. -/
theorem loadsText_dumpsPlain [PyRuntime] (limit : ℕ) (text : PyStr) :
    loadsText limit (dumpsPlain text) = .ok (.str text) := by
  have hscan : scanOnce limit (skipPoints (dumpsPlain text)) = _ :=
    scanOnce_dumpsPlain limit text
  rw [loadsText, hscan]
  rfl

theorem encodable_escapePlain (point : CodePoint) :
    encodable (escapePlain point) = !isSurrogate point := by
  rw [escapePlain]
  rcases hshort : shortEscape point with _ | escape
  · dsimp only
    split_ifs with hcontrol
    · have hclear : isSurrogate point = false :=
        isSurrogate_eq_false_iff.mpr (Or.inl (hcontrol.trans (by decide)))
      rw [hclear, encodable, List.all_map]
      apply List.all_eq_true.mpr
      intro char _
      rw [Function.comp_apply, isSurrogate_ofChar]
      rfl
    · exact Bool.and_true _
  · obtain ⟨-, char, -, rfl⟩ := unescape_shortEscape hshort
    simp only [encodable, List.all_cons, List.all_nil, isSurrogate_ofChar]
    rfl

/-- Escaping neither adds nor removes a surrogate. -/
theorem encodable_dumpsPlain (text : PyStr) : encodable (dumpsPlain text) = encodable text := by
  have hbody : encodable (text.flatMap escapePlain) = encodable text := by
    induction text with
    | nil => rfl
    | cons point text ih =>
        have hpoint := encodable_escapePlain point
        simp only [encodable] at ih hpoint ⊢
        rw [List.flatMap_cons, List.all_append, hpoint, ih, List.all_cons]
  have hquote : (!isSurrogate (ofChar '"')) = true := by decide
  simp only [encodable] at hbody ⊢
  rw [dumpsPlain, List.cons_append, List.all_cons, List.all_append, List.all_cons, hbody,
    hquote, List.all_nil, Bool.true_and, Bool.and_true, Bool.and_true]

/-! ## Percent encoding -/

/-- `_ALWAYS_SAFE`: the letters, the digits and `_.-~`. -/
def isUnreserved (code : ℕ) : Bool :=
  (0x30 ≤ code && code ≤ 0x39) || (0x41 ≤ code && code ≤ 0x5A) ||
    (0x61 ≤ code && code ≤ 0x7A) || code == 0x5F || code == 0x2E || code == 0x2D ||
    code == 0x7E

def upperDigit (digit : ℕ) : CodePoint :=
  if digit < 10 then ofCode (0x30 + digit) else ofCode (0x37 + digit)

def quoteByte (byte : UInt8) : PyStr :=
  if isUnreserved byte.toNat then [ofCode byte.toNat]
  else [ofChar '%', upperDigit (byte.toNat / 16), upperDigit (byte.toNat % 16)]

/-- `quote(text, safe="")`, `none` for `UnicodeEncodeError`. -/
def quote (text : PyStr) : Option PyStr :=
  (encodeUtf8 text).map fun bytes => bytes.flatMap quoteByte

/-- The bytes that a percent-encoded text spells. -/
def unquoteBytes : PyStr → Option PyBytes
  | [] => some []
  | point :: rest =>
    if point = ofChar '%' then
      match rest with
      | high :: low :: rest => do
        let high ← hexValue (asciiChar high)
        let low ← hexValue (asciiChar low)
        (unquoteBytes rest).map (UInt8.ofNat (high * 16 + low) :: ·)
      | _ => none
    else if point.val < 128 then (unquoteBytes rest).map (UInt8.ofNat point.val :: ·)
    else none

/-- Percent-decoding: the text whose UTF-8 encoding the escapes spell. -/
def unquote (text : PyStr) : Option PyStr :=
  (unquoteBytes text).bind decodeUtf8

def isUpperHex (code : ℕ) : Bool :=
  (0x30 ≤ code && code ≤ 0x39) || (0x41 ≤ code && code ≤ 0x46)

/-- Text of unreserved characters and percent escapes. -/
inductive Quoted : PyStr → Prop
  | nil : Quoted []
  | plain {point : CodePoint} {rest : PyStr} (hpoint : isUnreserved point.val = true)
      (hrest : Quoted rest) : Quoted (point :: rest)
  | escape {high low : CodePoint} {rest : PyStr} (hhigh : isUpperHex high.val = true)
      (hlow : isUpperHex low.val = true) (hrest : Quoted rest) :
      Quoted (ofChar '%' :: high :: low :: rest)

theorem isUnreserved_of_isUpperHex {code : ℕ} (hcode : isUpperHex code = true) :
    isUnreserved code = true := by
  simp only [isUpperHex, Bool.or_eq_true, Bool.and_eq_true, decide_eq_true_eq] at hcode
  simp only [isUnreserved, Bool.or_eq_true, Bool.and_eq_true, decide_eq_true_eq]
  omega

namespace Quoted

theorem append {text rest : PyStr} (htext : Quoted text) (hrest : Quoted rest) :
    Quoted (text ++ rest) := by
  induction htext with
  | nil => exact hrest
  | plain hpoint _ ih => exact .plain hpoint ih
  | escape hhigh hlow _ ih => exact .escape hhigh hlow ih

theorem mem {text : PyStr} (htext : Quoted text) {point : CodePoint} (hpoint : point ∈ text) :
    isUnreserved point.val = true ∨ point = ofChar '%' := by
  induction htext with
  | nil => cases hpoint
  | plain hfirst _ ih =>
      rcases List.mem_cons.mp hpoint with rfl | hrest
      · exact Or.inl hfirst
      · exact ih hrest
  | escape hhigh hlow _ ih =>
      simp only [List.mem_cons] at hpoint
      rcases hpoint with hpercent | rfl | rfl | hrest
      · exact Or.inr hpercent
      · exact Or.inl (isUnreserved_of_isUpperHex hhigh)
      · exact Or.inl (isUnreserved_of_isUpperHex hlow)
      · exact ih hrest

/-- No reserved character but the percent sign occurs. -/
theorem not_mem {text : PyStr} (htext : Quoted text) {char : Char}
    (hreserved : isUnreserved char.toNat = false) (hpercent : char ≠ '%') :
    ofChar char ∉ text := by
  intro hmem
  rcases htext.mem hmem with hunreserved | heq
  · exact Bool.false_ne_true (hreserved.symm.trans hunreserved)
  · exact hpercent (ofChar_injective heq)

end Quoted

theorem val_ofCode_byte (byte : UInt8) : (ofCode byte.toNat).val = byte.toNat :=
  Nat.mod_eq_of_lt (byte.toNat_lt.trans (by decide))

theorem hexValue_upperDigit {digit : ℕ} (hdigit : digit < 16) :
    hexValue (asciiChar (upperDigit digit)) = some digit ∧
      isUpperHex (upperDigit digit).val = true := by
  interval_cases digit <;> decide

theorem quoted_quoteByte (byte : UInt8) : Quoted (quoteByte byte) := by
  have hbyte := byte.toNat_lt
  rw [quoteByte]
  split_ifs with hplain
  · exact .plain (by rw [val_ofCode_byte]; exact hplain) .nil
  · exact .escape (hexValue_upperDigit (by omega)).2 (hexValue_upperDigit (by omega)).2 .nil

theorem unquoteBytes_quoteByte (byte : UInt8) (rest : PyStr) :
    unquoteBytes (quoteByte byte ++ rest) = (unquoteBytes rest).map (byte :: ·) := by
  have hbyte := byte.toNat_lt
  rw [quoteByte]
  split_ifs with hplain
  · have hval := val_ofCode_byte byte
    have hpercent : ofCode byte.toNat ≠ ofChar '%' := by
      intro heq
      rw [← hval, heq] at hplain
      exact absurd hplain (by decide)
    have hascii : (ofCode byte.toNat).val < 128 := by
      simp only [isUnreserved, Bool.or_eq_true, Bool.and_eq_true, decide_eq_true_eq,
        beq_iff_eq] at hplain
      omega
    rw [List.singleton_append, unquoteBytes.eq_def]
    dsimp only
    rw [if_neg hpercent, if_pos hascii, hval, UInt8.ofNat_toNat]
  · have hdigits : byte.toNat / 16 * 16 + byte.toNat % 16 = byte.toNat := by omega
    have hhigh : hexValue (asciiChar (upperDigit (byte.toNat / 16))) = some _ :=
      (hexValue_upperDigit (by omega)).1
    have hlow : hexValue (asciiChar (upperDigit (byte.toNat % 16))) = some _ :=
      (hexValue_upperDigit (by omega)).1
    rw [List.cons_append, List.cons_append, List.singleton_append, unquoteBytes.eq_def]
    dsimp only
    rw [if_pos rfl, hhigh, hlow]
    simp only [Option.bind_eq_bind, Option.bind_some]
    rw [hdigits, UInt8.ofNat_toNat]

theorem unquoteBytes_quoteBytes (bytes : PyBytes) :
    unquoteBytes (bytes.flatMap quoteByte) = some bytes := by
  induction bytes with
  | nil => rfl
  | cons byte bytes ih =>
      rw [List.flatMap_cons, unquoteBytes_quoteByte, ih]
      rfl

theorem quoted_quote {text quoted : PyStr} (hquote : quote text = some quoted) :
    Quoted quoted := by
  obtain ⟨bytes, -, rfl⟩ := Option.map_eq_some_iff.mp hquote
  clear hquote
  induction bytes with
  | nil => exact .nil
  | cons byte bytes ih =>
      rw [List.flatMap_cons]
      exact (quoted_quoteByte byte).append ih

/-- Percent-decoding inverts quoting. -/
theorem unquote_quote {text quoted : PyStr} (hquote : quote text = some quoted) :
    unquote quoted = some text := by
  obtain ⟨bytes, hbytes, rfl⟩ := Option.map_eq_some_iff.mp hquote
  rw [unquote, unquoteBytes_quoteBytes]
  exact decodeUtf8_encodeUtf8 hbytes

theorem quote_isSome_iff {text : PyStr} : (quote text).isSome ↔ encodable text = true := by
  rw [quote, Option.isSome_map, encodeUtf8_isSome_iff]

/-- Two texts are never quoted alike. -/
theorem quote_inj {left right quoted : PyStr} (hleft : quote left = some quoted)
    (hright : quote right = some quoted) : left = right :=
  Option.some.inj ((unquote_quote hleft).symm.trans (unquote_quote hright))

end SsfTransmitter.Python
