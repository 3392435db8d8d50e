import SsfTransmitter.Python.JsonText

/-!
# Decoding bytes

`bytes.decode(encoding, "surrogatepass")` for the encodings that `json.loads`
detects, and `str.encode("utf-8")`.
-/

namespace SsfTransmitter.Python

abbrev PyBytes := List UInt8

/-- A continuation byte of UTF-8. -/
def isTail (byte : UInt8) : Bool :=
  0x80 ≤ byte.toNat && byte.toNat ≤ 0xBF

def ofCode (code : ℕ) : CodePoint :=
  Fin.ofNat 0x110000 code

/-- `decode("utf-8", "surrogatepass")`: three bytes may also spell a surrogate. -/
def decodeUtf8 : PyBytes → Option PyStr
  | [] => some []
  | first :: rest =>
    if first.toNat < 0x80 then (decodeUtf8 rest).map (ofCode first.toNat :: ·)
    else if 0xC2 ≤ first.toNat ∧ first.toNat ≤ 0xDF then
      match rest with
      | second :: rest =>
        if isTail second then
          (decodeUtf8 rest).map
            (ofCode (first.toNat % 0x20 * 0x40 + second.toNat % 0x40) :: ·)
        else none
      | [] => none
    else if 0xE0 ≤ first.toNat ∧ first.toNat ≤ 0xEF then
      match rest with
      | second :: third :: rest =>
        if isTail second && isTail third &&
            (first.toNat ≠ 0xE0 || 0xA0 ≤ second.toNat) then
          (decodeUtf8 rest).map
            (ofCode (first.toNat % 0x10 * 0x1000 + second.toNat % 0x40 * 0x40 +
              third.toNat % 0x40) :: ·)
        else none
      | _ => none
    else if 0xF0 ≤ first.toNat ∧ first.toNat ≤ 0xF4 then
      match rest with
      | second :: third :: fourth :: rest =>
        if isTail second && isTail third && isTail fourth &&
            (first.toNat ≠ 0xF0 || 0x90 ≤ second.toNat) &&
            (first.toNat ≠ 0xF4 || second.toNat ≤ 0x8F) then
          (decodeUtf8 rest).map
            (ofCode (first.toNat % 0x08 * 0x40000 + second.toNat % 0x40 * 0x1000 +
              third.toNat % 0x40 * 0x40 + fourth.toNat % 0x40) :: ·)
        else none
      | _ => none
    else none

inductive ByteOrder where
  | little
  | big

/-- The 16-bit units of UTF-16, `none` for a half unit at the end. -/
def units16 (order : ByteOrder) : PyBytes → Option (List CodePoint)
  | [] => some []
  | [_] => none
  | first :: second :: rest =>
    let unit := match order with
      | .little => first.toNat + second.toNat * 0x100
      | .big => first.toNat * 0x100 + second.toNat
    (units16 order rest).map (ofCode unit :: ·)

/-- `decode("utf-16-…", "surrogatepass")`: unpaired surrogates are kept. -/
def decodeUtf16 (order : ByteOrder) (bytes : PyBytes) : Option PyStr :=
  (units16 order bytes).map fun units => joinSurrogates (units.map fun unit => (true, unit))

/-- `decode("utf-32-…", "surrogatepass")` -/
def decodeUtf32 (order : ByteOrder) : PyBytes → Option PyStr
  | [] => some []
  | first :: second :: third :: fourth :: rest =>
    let code := match order with
      | .little => first.toNat + second.toNat * 0x100 + third.toNat * 0x10000 +
          fourth.toNat * 0x1000000
      | .big => first.toNat * 0x1000000 + second.toNat * 0x10000 + third.toNat * 0x100 +
          fourth.toNat
    if code < 0x110000 then (decodeUtf32 order rest).map (ofCode code :: ·) else none
  | _ => none

/-- What `json.detect_encoding` decides, and the decoding that follows. -/
def decodeDetected (bytes : PyBytes) : Option PyStr :=
  match bytes with
  | 0x00 :: 0x00 :: 0xFE :: 0xFF :: rest => decodeUtf32 .big rest
  | 0xFF :: 0xFE :: 0x00 :: 0x00 :: rest => decodeUtf32 .little rest
  | 0xFE :: 0xFF :: rest => decodeUtf16 .big rest
  | 0xFF :: 0xFE :: rest => decodeUtf16 .little rest
  | 0xEF :: 0xBB :: 0xBF :: rest => decodeUtf8 rest
  | first :: second :: third :: fourth :: _ =>
    if first = 0 then
      if second = 0 then decodeUtf32 .big bytes else decodeUtf16 .big bytes
    else if second = 0 then
      if third = 0 ∧ fourth = 0 then decodeUtf32 .little bytes
      else decodeUtf16 .little bytes
    else decodeUtf8 bytes
  | [first, second] =>
    if first = 0 then decodeUtf16 .big bytes
    else if second = 0 then decodeUtf16 .little bytes
    else decodeUtf8 bytes
  | _ => decodeUtf8 bytes

/-- `text.encode("utf-8")`, `none` for `UnicodeEncodeError`. -/
def encodeUtf8 (text : PyStr) : Option PyBytes :=
  (toString? text).map fun text => text.toUTF8.toList

/-- Only surrogates keep a text from being encoded. -/
theorem encodeUtf8_isSome_iff {text : PyStr} :
    (encodeUtf8 text).isSome ↔ encodable text = true := by
  rw [encodeUtf8, toString?, Option.isSome_map, Option.isSome_map, encodable,
    List.all_eq_true]
  induction text with
  | nil => simp
  | cons point rest ih =>
      rw [List.forall_mem_cons, ← ih, List.mapM_cons]
      by_cases hpoint : 0xD800 ≤ point.val ∧ point.val ≤ 0xDFFF
      · rw [if_pos hpoint]
        simp [isSurrogate, hpoint]
      · have hclear : isSurrogate point = false := by
          rw [isSurrogate_eq_false_iff]
          omega
        rw [if_neg hpoint, hclear]
        rcases List.mapM _ rest with _ | chars <;> simp

/-! ## Reading back -/

theorem toNat_ofNat_of_lt {value : ℕ} (hvalue : value < 256) :
    (UInt8.ofNat value).toNat = value := by
  rw [UInt8.toNat_ofNat', Nat.mod_eq_of_lt hvalue]

theorem isTail_ofNat (value : ℕ) : isTail (UInt8.ofNat (value % 0x40 + 0x80)) = true := by
  rw [isTail, toNat_ofNat_of_lt (by omega)]
  simp only [Bool.and_eq_true, decide_eq_true_eq]
  omega

theorem ofCode_eq_ofChar (char : Char) {code : ℕ} (hcode : code = char.val.toNat) :
    ofCode code = ofChar char := by
  apply Fin.ext
  have hlt := (ofChar char).isLt
  rw [hcode]
  exact Nat.mod_eq_of_lt hlt

/-- The bytes of an array as a list. -/
theorem toList_eq_data_toList (bytes : ByteArray) : bytes.toList = bytes.data.toList := by
  suffices hloop : ∀ index collected, ByteArray.toList.loop bytes index collected =
      collected.reverse ++ bytes.data.toList.drop index from hloop 0 []
  intro index collected
  fun_induction ByteArray.toList.loop bytes index collected with
  | case1 index collected hlt ih =>
      have hindex : index < bytes.data.toList.length := hlt
      have hget : bytes.get! index = bytes.data.toList[index] :=
        getElem!_pos bytes.data index hlt
      rw [ih, List.drop_eq_getElem_cons hindex, hget, List.reverse_cons, List.append_assoc,
        List.singleton_append]
  | case2 index collected hge =>
      have hindex : bytes.data.toList.length ≤ index := Nat.not_lt.mp hge
      rw [List.drop_eq_nil_of_le hindex, List.append_nil]

/-- One encoded character is decoded first. -/
theorem decodeUtf8_encodeChar (char : Char) (rest : PyBytes) :
    decodeUtf8 (String.utf8EncodeChar char ++ rest) =
      (decodeUtf8 rest).map (ofChar char :: ·) := by
  have hvalid : char.val.toNat < 0x110000 := (ofChar char).isLt
  have hclear := isSurrogate_eq_false_iff.mp (isSurrogate_ofChar char)
  have hval : (ofChar char).val = char.val.toNat := rfl
  have htoNat : char.toNat = char.val.toNat := rfl
  rw [String.utf8EncodeChar]
  split_ifs with hone htwo hthree
  · rw [List.singleton_append, decodeUtf8.eq_def]
    dsimp only
    rw [toNat_ofNat_of_lt (by omega), if_pos (by omega), ofCode_eq_ofChar char rfl]
  · rw [List.cons_append, List.singleton_append, decodeUtf8, toNat_ofNat_of_lt (by omega),
      if_neg (by omega), if_pos (by omega), if_pos (isTail_ofNat _), toNat_ofNat_of_lt (by omega),
      ofCode_eq_ofChar char (by omega)]
  · rw [List.cons_append, List.cons_append, List.singleton_append, decodeUtf8,
      toNat_ofNat_of_lt (by omega), if_neg (by omega), if_neg (by omega), if_pos (by omega)]
    dsimp only
    rw [isTail_ofNat, isTail_ofNat, toNat_ofNat_of_lt (by omega),
      toNat_ofNat_of_lt (by omega), ofCode_eq_ofChar char (by omega), if_pos]
    simp
    omega
  · rw [List.cons_append, List.cons_append, List.cons_append, List.singleton_append, decodeUtf8,
      toNat_ofNat_of_lt (by omega), if_neg (by omega), if_neg (by omega), if_neg (by omega),
      if_pos (by omega)]
    dsimp only
    rw [isTail_ofNat, isTail_ofNat, isTail_ofNat, toNat_ofNat_of_lt (by omega),
      toNat_ofNat_of_lt (by omega), toNat_ofNat_of_lt (by omega),
      ofCode_eq_ofChar char (by omega), if_pos]
    simp
    omega

theorem decodeUtf8_encodeChars (chars : List Char) :
    decodeUtf8 (chars.flatMap String.utf8EncodeChar) = some (chars.map ofChar) := by
  induction chars with
  | nil => rfl
  | cons char chars ih =>
      rw [List.flatMap_cons, decodeUtf8_encodeChar, ih]
      rfl

/-- The code points of a Lean text are those it came from. -/
theorem ofString_of_toString? {text : PyStr} {result : String}
    (htext : toString? text = some result) : ofString result = text := by
  rw [toString?, Option.map_eq_some_iff] at htext
  obtain ⟨chars, hchars, rfl⟩ := htext
  rw [ofString, String.toList_ofList]
  induction text generalizing chars with
  | nil =>
      obtain rfl := Option.some.inj hchars
      rfl
  | cons point rest ih =>
      simp only [List.mapM_cons, Option.pure_def, Option.bind_eq_bind,
        Option.bind_eq_some_iff] at hchars
      obtain ⟨char, hchar, others, hothers, hchars⟩ := hchars
      obtain rfl := Option.some.inj hchars
      split_ifs at hchar with hsurrogate
      obtain rfl := Option.some.inj hchar
      rw [List.map_cons, ih others hothers]
      rw [ofChar_ofNat (isSurrogate_eq_false_iff.mpr (by omega))]

/-- Decoding inverts encoding. -/
theorem decodeUtf8_encodeUtf8 {text : PyStr} {bytes : PyBytes}
    (hencode : encodeUtf8 text = some bytes) : decodeUtf8 bytes = some text := by
  rw [encodeUtf8, Option.map_eq_some_iff] at hencode
  obtain ⟨result, hresult, rfl⟩ := hencode
  have hbytes : result.toUTF8.toList = result.toList.flatMap String.utf8EncodeChar := by
    rw [toList_eq_data_toList, String.toUTF8_eq_toByteArray, ← String.utf8Encode_toList,
      List.utf8Encode, List.toList_data_toByteArray]
  rw [hbytes, decodeUtf8_encodeChars]
  exact congrArg some (ofString_of_toString? hresult)

end SsfTransmitter.Python
