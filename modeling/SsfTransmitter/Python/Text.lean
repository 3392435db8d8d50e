import Mathlib.Data.List.DropRight
import Mathlib.Tactic

/-!
# Python strings

A Python `str` is a sequence of code points in which unpaired surrogates may
occur: `json.loads` produces them, while `str.encode` refuses them.  The store
only ever holds text that SQLite could encode, which is Lean's `String`; the
values exchanged with Apple and Authentik use the wider type of this file.
-/

namespace SsfTransmitter.Python

abbrev CodePoint := Fin 0x110000
abbrev PyStr := List CodePoint

instance neZero_codePoints : NeZero 0x110000 := ⟨Nat.succ_ne_zero _⟩

instance lawfulBEq_pyStr : LawfulBEq PyStr := inferInstance

def ofChar (char : Char) : CodePoint :=
  ⟨char.toNat, by
    have hvalid := char.valid
    simp only [UInt32.isValidChar, Nat.isValidChar] at hvalid
    simp only [Char.toNat]
    omega⟩

theorem ofChar_injective : Function.Injective ofChar := by
  intro left right heq
  have hval := congrArg Fin.val heq
  exact Char.ext (UInt32.toNat_inj.mp hval)

def ofString (text : String) : PyStr :=
  text.toList.map ofChar

instance : Coe String PyStr := ⟨ofString⟩

theorem ofString_injective : Function.Injective ofString := by
  intro left right heq
  exact String.toList_injective
    (List.map_injective_iff.mpr ofChar_injective heq)

@[simp]
theorem ofString_inj {left right : String} :
    ofString left = ofString right ↔ left = right :=
  ofString_injective.eq_iff

/-- The Lean text of a code point sequence without surrogates. -/
def toString? (text : PyStr) : Option String :=
  (text.mapM fun point : CodePoint =>
    if 0xD800 ≤ point.val ∧ point.val ≤ 0xDFFF then none
    else some (Char.ofNat point.val)).map String.ofList

/-- Code points that no UTF-8 sequence encodes. -/
def isSurrogate (point : CodePoint) : Bool :=
  0xD800 ≤ point.val && point.val ≤ 0xDFFF

theorem isSurrogate_eq_false_iff {point : CodePoint} :
    isSurrogate point = false ↔ point.val < 0xD800 ∨ 0xDFFF < point.val := by
  simp only [isSurrogate, Bool.and_eq_false_iff, decide_eq_false_iff_not]
  omega

theorem isSurrogate_ofChar (char : Char) : isSurrogate (ofChar char) = false := by
  have hvalid := char.valid
  simp only [UInt32.isValidChar, Nat.isValidChar] at hvalid
  rw [isSurrogate_eq_false_iff]
  change char.val.toNat < 0xD800 ∨ 0xDFFF < char.val.toNat
  omega

theorem ofChar_ofNat {point : CodePoint} (hclear : isSurrogate point = false) :
    ofChar (Char.ofNat point.val) = point := by
  apply Fin.ext
  have hbounds := isSurrogate_eq_false_iff.mp hclear
  have hvalid : point.val.isValidChar := by
    have hlt := point.isLt
    rw [Nat.isValidChar]
    omega
  have hchar : Char.ofNat point.val = Char.ofNatAux point.val hvalid := dif_pos hvalid
  change (Char.ofNat point.val).toNat = point.val
  rw [hchar]
  rfl

/-- `str.encode("utf-8")` succeeds. -/
def encodable (text : PyStr) : Bool :=
  text.all fun point => !isSurrogate point

@[simp]
theorem toString?_ofString (text : String) : toString? (ofString text) = some text := by
  have hchars : (ofString text).mapM (fun point : CodePoint =>
      if 0xD800 ≤ point.val ∧ point.val ≤ 0xDFFF then none
      else some (Char.ofNat point.val)) = some text.toList := by
    rw [ofString]
    induction text.toList with
    | nil => rfl
    | cons char chars ih =>
        have hchar := isSurrogate_eq_false_iff.mp (isSurrogate_ofChar char)
        have hofNat : Char.ofNat (ofChar char).val = char := Char.ofNat_toNat char
        rw [List.map_cons, List.mapM_cons, ih, if_neg (by omega), hofNat]
        rfl
  rw [toString?, hchars]
  simp

theorem encodable_ofString (text : String) : encodable (ofString text) = true := by
  simp [encodable, ofString, isSurrogate_ofChar]

/-- `str.isspace` for one code point: bidirectional type WS, B or S, or
category Zs. -/
def isSpace (point : CodePoint) : Bool :=
  let code := point.val
  (9 ≤ code && code ≤ 13) || (28 ≤ code && code ≤ 32) || code == 0x85 ||
    code == 0xA0 || code == 0x1680 || (0x2000 ≤ code && code ≤ 0x200A) ||
    code == 0x2028 || code == 0x2029 || code == 0x202F || code == 0x205F ||
    code == 0x3000

/-- `str.strip()`. -/
def strip (text : PyStr) : PyStr :=
  (text.dropWhile isSpace).rdropWhile isSpace

@[simp]
theorem strip_nil : strip [] = [] := rfl

/-- `not text.strip()`. -/
def isBlank (text : PyStr) : Bool :=
  (strip text).isEmpty

private theorem dropWhile_rdropWhile_comm (keep : CodePoint → Bool)
    (text : PyStr) (hhead : text.dropWhile keep = text) :
    (text.rdropWhile keep).dropWhile keep = text.rdropWhile keep := by
  rcases htail : text.rdropWhile keep with _ | ⟨first, rest⟩
  · rfl
  have hprefix : text.rdropWhile keep <+: text := List.rdropWhile_prefix keep text
  rw [htail] at hprefix
  obtain ⟨suffix, htext⟩ := hprefix
  have hfirst : keep first = false := by
    rw [← htext, List.cons_append] at hhead
    by_contra hkeep
    rw [List.dropWhile_cons_of_pos (by simpa using hkeep)] at hhead
    have hlength := congrArg List.length hhead
    have hsuffix : (rest ++ suffix).dropWhile keep <:+ rest ++ suffix :=
      List.dropWhile_suffix keep
    have hle := hsuffix.length_le
    simp only [List.length_cons] at hlength
    omega
  simp [hfirst]

theorem strip_strip (text : PyStr) : strip (strip text) = strip text := by
  unfold strip
  rw [dropWhile_rdropWhile_comm isSpace (text.dropWhile isSpace)
    (List.dropWhile_idempotent ..), List.rdropWhile_idempotent]

/-- The interpreter's tables that no result here depends on: the case mapping
and printability of the Unicode database and the rendering of floats. -/
class PyRuntime where
  /-- `str.lower()` -/
  lower : PyStr → PyStr
  lower_nil : lower [] = []
  /-- `str.isprintable()` for one code point -/
  isPrintable : CodePoint → Bool
  /-- `repr(float(literal))` -/
  floatRepr : PyStr → PyStr

theorem bind_eq_ok_iff {Error First Second : Type} {first : Except Error First}
    {next : First → Except Error Second} {result : Second} :
    (first >>= next) = .ok result ↔ ∃ value, first = .ok value ∧ next value = .ok result := by
  cases first with
  | error error => simp [bind, Except.bind]
  | ok value => simp [bind, Except.bind]

end SsfTransmitter.Python
