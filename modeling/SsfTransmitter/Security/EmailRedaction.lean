import SsfTransmitter.Python.Ascii
import SsfTransmitter.Security.HttpLogging

/-!
# Addresses in previews

Redaction by pattern leaves no address in a text it is applied to.  A preview of a
JSON document applies it to the string values only, and before their escapes are
written: it shows the addresses among the keys, and those that an escape completes.
-/

namespace SsfTransmitter.Security

open SsfTransmitter.Core
open SsfTransmitter.Python
open SsfTransmitter.Webhook

/-! ## The expression -/

/-- Every code point of an address is one of its local part, or the at sign. -/
theorem avoids_emailRegex_iff {point : CodePoint} :
    emailRegex.Avoids point ↔ isLocalPoint point = false ∧ point ≠ ofChar '@' := by
  simp only [emailRegex, Regex.Avoids, beq_eq_false_iff_ne]
  constructor
  · intro havoids
    exact ⟨havoids.1, havoids.2.1⟩
  · intro havoids
    obtain ⟨hlocal, hat⟩ := havoids
    have hparts := hlocal
    simp only [isLocalPoint, Bool.or_eq_false_iff, beq_eq_false_iff_ne] at hparts
    have hlabel := hparts.1.1.1.1
    have hletter := hlabel
    simp only [isLabelPoint, Bool.or_eq_false_iff] at hletter
    exact ⟨hlocal, hat, ⟨hlabel, hparts.1.1.1.2⟩, hletter.1.1⟩

theorem not_matches_nil : ¬emailRegex.Matches [] := by
  intro hmatches
  have hat : ∀ word, emailRegex.Matches word → word ≠ [] := by
    intro word hword
    cases hword with
    | seq _ hrest =>
        cases hrest with
        | seq hat _ =>
            cases hat
            simp
  exact hat [] hmatches rfl

theorem at_mem_of_matches {word : PyStr} (hmatches : emailRegex.Matches word) :
    ofChar '@' ∈ word := by
  cases hmatches with
  | seq _ hrest =>
      cases hrest with
      | seq hat _ =>
          cases hat with
          | one haccepts =>
              rw [← beq_iff_eq.mp haccepts]
              simp

/-- Text without an at sign holds no address. -/
theorem clear_of_not_mem_at {text : PyStr} (htext : ofChar '@' ∉ text) :
    emailRegex.Clear text :=
  fun _ hinside hmatches => htext (hinside.subset (at_mem_of_matches hmatches))

theorem encodable_of_matches {word : PyStr} (hmatches : emailRegex.Matches word) :
    encodable word = true := by
  rw [encodable, List.all_eq_true]
  intro point hpoint
  by_contra hsurrogate
  have hbounds : 0xD800 ≤ point.val ∧ point.val ≤ 0xDFFF := by
    simpa [isSurrogate] using hsurrogate
  refine Regex.not_mem_of_avoids hmatches (avoids_emailRegex_iff.mpr ⟨?_, ?_⟩) hpoint
  · have hne : ∀ char : Char, char.toNat < 128 → point ≠ ofChar char := by
      rintro char hchar rfl
      have hval : (ofChar char).val = char.toNat := rfl
      omega
    simp only [isLocalPoint, isLabelPoint, isLetter, Bool.or_eq_false_iff,
      Bool.and_eq_false_iff, decide_eq_false_iff_not, beq_eq_false_iff_ne]
    refine ⟨⟨⟨⟨⟨⟨⟨⟨⟨⟨⟨?_, ?_⟩, ?_⟩, ?_⟩, ?_⟩, ?_⟩, ?_⟩, ?_⟩, ?_⟩, ?_⟩, ?_⟩, ?_⟩ <;>
      first | omega | exact hne _ (by decide)
  · rintro rfl
    have hval : (ofChar '@').val = 64 := rfl
    omega

/-! ## Redacted text -/

section Redacted

variable (hmac : Hmac) {settings : LogSettings}

/-- Without `log_pii`, an address is replaced by its digest in brackets. -/
theorem replacement_of_matches (hlog : settings.logPii = false) {word : PyStr}
    (hmatches : emailRegex.Matches word) :
    ∃ bytes, replacement hmac settings word =
      ofString "[pii:" ++ (hexDigest bytes).take 8 ++ ofString "]" := by
  obtain ⟨message, hmessage⟩ := Option.isSome_iff_exists.mp
    (encodeUtf8_isSome_iff.mpr (encodable_of_matches hmatches))
  refine ⟨hmac settings.piiKey.toUTF8.toList message, ?_⟩
  rw [replacement, maskEmail, hlog, hmessage]
  rfl

theorem isLocalPoint_digitChar {digit : ℕ} (hdigit : digit < 16) :
    isLocalPoint (ofChar (Nat.digitChar digit)) = true := by
  interval_cases digit <;> decide

theorem isLocalPoint_hexDigest {bytes : PyBytes} {point : CodePoint}
    (hpoint : point ∈ hexDigest bytes) : isLocalPoint point = true := by
  obtain ⟨byte, -, hdigit⟩ := List.mem_flatMap.mp hpoint
  have hbyte := byte.toNat_lt
  simp only [List.mem_cons, List.not_mem_nil, or_false] at hdigit
  rcases hdigit with rfl | rfl
  · exact isLocalPoint_digitChar (by omega)
  · exact isLocalPoint_digitChar (by omega)

theorem at_not_mem_of_local {text : PyStr} (htext : ∀ point ∈ text, isLocalPoint point = true) :
    ofChar '@' ∉ text :=
  fun hat => absurd (htext _ hat) (by decide)

theorem sealed_replacement (hlog : settings.logPii = false) {word : PyStr}
    (hmatches : emailRegex.Matches word) :
    emailRegex.Sealed (replacement hmac settings word) := by
  obtain ⟨bytes, hreplacement⟩ := replacement_of_matches hmac hlog hmatches
  refine ⟨ofChar '[', ofString "pii:" ++ (hexDigest bytes).take 8, ofChar ']', ?_, ?_, ?_, ?_⟩
  · rw [hreplacement]
    rfl
  · exact avoids_emailRegex_iff.mpr (by decide)
  · exact avoids_emailRegex_iff.mpr (by decide)
  · apply clear_of_not_mem_at
    rw [List.mem_append, not_or]
    exact ⟨by decide, at_not_mem_of_local fun point hpoint =>
      isLocalPoint_hexDigest (List.mem_of_mem_take hpoint)⟩

/-- Redacted text holds no address. -/
theorem clear_redactText (hlog : settings.logPii = false) (text : PyStr) :
    emailRegex.Clear (redactText hmac settings text) :=
  Regex.clear_sub not_matches_nil (fun _ hmatches => sealed_replacement hmac hlog hmatches) text

end Redacted

/-! ## Cut texts -/

theorem clear_nil : emailRegex.Clear [] :=
  clear_of_not_mem_at List.not_mem_nil

/-- What a cut text holds on both sides of a symbol that no address has. -/
theorem clear_take_fence_iff {fence : CodePoint} (hfence : emailRegex.Avoids fence)
    {front tail : PyStr} (limit : ℕ) :
    emailRegex.Clear ((front ++ fence :: tail).take limit) ↔
      emailRegex.Clear (front.take limit) ∧
        emailRegex.Clear (tail.take (limit - front.length - 1)) := by
  rw [List.take_append]
  rcases hrest : limit - front.length with _ | rest
  · simp only [List.take_zero, List.append_nil, Nat.zero_sub, clear_nil, and_true]
  · rw [List.take_succ_cons, Nat.add_sub_cancel]
    constructor
    · intro hclear
      have htail : tail.take rest <:+ front.take limit ++ fence :: tail.take rest :=
        (List.suffix_cons fence _).trans (List.suffix_append ..)
      exact ⟨hclear.of_infix (List.prefix_append ..).isInfix, hclear.of_infix htail.isInfix⟩
    · intro hclear
      exact Regex.clear_append_fence hfence hclear.1 hclear.2

/-- Brackets around a text neither add nor hide an address. -/
theorem clear_take_bracketed_iff {left right : Char} (hleft : emailRegex.Avoids (ofChar left))
    (hright : emailRegex.Avoids (ofChar right)) {text : List Char} (limit : ℕ) :
    emailRegex.Clear (((left :: text ++ [right]).map ofChar).take limit) ↔
      emailRegex.Clear ((text.map ofChar).take (limit - 1)) := by
  have hsplit : (left :: text ++ [right]).map ofChar =
      [] ++ ofChar left :: (text.map ofChar ++ ofChar right :: []) := by
    simp
  rw [hsplit, clear_take_fence_iff hleft, clear_take_fence_iff hright]
  simp only [List.take_nil, clear_nil, true_and, and_true, List.length_nil, Nat.sub_zero]

/-- Nor does a separator between two texts. -/
theorem clear_take_separated_iff {mark : Char} (hmark : emailRegex.Avoids (ofChar mark))
    {front tail : List Char} (limit : ℕ) :
    emailRegex.Clear (((front ++ [mark, ' '] ++ tail).map ofChar).take limit) ↔
      emailRegex.Clear ((front.map ofChar).take limit) ∧
        emailRegex.Clear ((tail.map ofChar).take (limit - front.length - 2)) := by
  have hspace : emailRegex.Avoids (ofChar ' ') := avoids_emailRegex_iff.mpr (by decide)
  have hsplit : (front ++ [mark, ' '] ++ tail).map ofChar =
      front.map ofChar ++ ofChar mark :: ([] ++ ofChar ' ' :: tail.map ofChar) := by
    simp
  rw [hsplit, clear_take_fence_iff hmark, clear_take_fence_iff hspace, List.length_map]
  simp only [List.take_nil, clear_nil, true_and, List.length_nil, Nat.sub_zero, Nat.sub_sub]

theorem clear_take_word {word : List Char} (hword : '@' ∉ word) (limit : ℕ) :
    emailRegex.Clear ((word.map ofChar).take limit) := by
  apply clear_of_not_mem_at
  intro hmem
  obtain ⟨char, hchar, heq⟩ := List.mem_map.mp (List.mem_of_mem_take hmem)
  rw [ofChar_injective heq] at hchar
  exact hword hchar

theorem at_not_mem_toString (value : ℤ) : '@' ∉ (toString value).toList := by
  have hdigits : ∀ count : ℕ, '@' ∉ count.repr.toList := by
    intro count hmem
    rw [Nat.toList_repr] at hmem
    exact absurd (Nat.isDigit_of_mem_toDigits (by decide) (by decide) hmem) (by decide)
  rw [Int.toString_eq_repr, Int.repr_eq_if]
  split_ifs
  · exact hdigits _
  · rw [String.toList_append, List.mem_append, not_or]
    exact ⟨by decide, hdigits _⟩

/-! ## Escapes -/

/-- A string between its quotes. -/
def written (text : PyStr) : PyStr :=
  (text.flatMap escapeAscii).map ofChar

def writtenFloat (text : PyStr) : PyStr :=
  ((floatLiteral text).map fun point => Char.ofNat point.val).map ofChar

theorem written_append (text rest : PyStr) :
    written (text ++ rest) = written text ++ written rest := by
  simp [written]

theorem written_cons (point : CodePoint) (text : PyStr) :
    written (point :: text) = written [point] ++ written text :=
  written_append [point] text

theorem at_not_mem_unicodeEscape (unit : ℕ) : '@' ∉ unicodeEscape unit := by
  have hdigit : ∀ digit : ℕ, digit < 16 → '@' ≠ Nat.digitChar digit := by
    intro digit hdigit heq
    have hlocal := isLocalPoint_digitChar hdigit
    rw [← heq] at hlocal
    exact absurd hlocal (by decide)
  simp only [unicodeEscape, hex4, List.mem_cons, List.not_mem_nil, or_false, not_or]
  exact ⟨by decide, by decide, hdigit _ (Nat.mod_lt _ (by decide)),
    hdigit _ (Nat.mod_lt _ (by decide)), hdigit _ (Nat.mod_lt _ (by decide)),
    hdigit _ (Nat.mod_lt _ (by decide))⟩

/-- A code point is written as it is, or as escapes. -/
theorem escapeAscii_cases (point : CodePoint) :
    (escapeAscii point).map ofChar = [point] ∨
      ∃ escape, escapeAscii point = '\\' :: escape ∧ '@' ∉ escapeAscii point := by
  rw [escapeAscii]
  rcases hshort : shortEscape point with _ | escape
  · dsimp only
    split_ifs with hprintable hplane
    · have hplain := ofChar_ofNat (isSurrogate_eq_false_iff.mpr
        (Or.inl (hprintable.2.trans (by decide))))
      exact .inl (by rw [List.map_singleton, hplain])
    · exact .inr ⟨_, rfl, at_not_mem_unicodeEscape _⟩
    · refine .inr ⟨_, rfl, ?_⟩
      rw [List.mem_append, not_or]
      exact ⟨at_not_mem_unicodeEscape _, at_not_mem_unicodeEscape _⟩
  · refine .inr ⟨_, rfl, ?_⟩
    have hescape : escape ≠ '@' := by
      rintro rfl
      rw [shortEscape] at hshort
      split_ifs at hshort <;> simp at hshort
    simpa using hescape.symm

theorem written_singleton (point : CodePoint) :
    written [point] = (escapeAscii point).map ofChar := by
  rw [written, List.flatMap_singleton]

theorem exists_written_eq_concat (point : CodePoint) :
    ∃ escape last, written [point] = escape ++ [last] := by
  have hnonempty : written [point] ≠ [] := by
    rw [written_singleton]
    rcases escapeAscii_cases point with hplain | ⟨_, hescape, -⟩
    · simp [hplain]
    · simp [hescape]
  exact ⟨_, _, (List.dropLast_append_getLast hnonempty).symm⟩

theorem written_at : written [ofChar '@'] = [ofChar '@'] := by
  decide

theorem at_not_mem_written {point : CodePoint} (hpoint : point ≠ ofChar '@') :
    ofChar '@' ∉ written [point] := by
  rw [written_singleton]
  rcases escapeAscii_cases point with hplain | ⟨_, -, hat⟩
  · rw [hplain]
    simpa using hpoint.symm
  · intro hmem
    obtain ⟨char, hchar, heq⟩ := List.mem_map.mp hmem
    exact hat (ofChar_injective heq ▸ hchar)

/-- An at sign that is written is one of the text. -/
theorem written_eq_append_at {text front tail : PyStr}
    (hwritten : written text = front ++ ofChar '@' :: tail) :
    ∃ before after, text = before ++ ofChar '@' :: after ∧ written before = front ∧
      written after = tail := by
  induction text generalizing front with
  | nil => simp [written] at hwritten
  | cons point text ih =>
      rw [written_cons] at hwritten
      by_cases hpoint : point = ofChar '@'
      · subst hpoint
        rw [written_at] at hwritten
        rcases front with _ | ⟨first, front⟩
        · exact ⟨[], text, rfl, rfl, (List.cons.inj hwritten).2⟩
        · obtain ⟨rfl, hrest⟩ := List.cons.inj hwritten
          obtain ⟨before, after, rfl, rfl, rfl⟩ := ih hrest
          exact ⟨ofChar '@' :: before, after, rfl, by rw [written_cons, written_at]; rfl, rfl⟩
      · obtain ⟨behind, rfl, hrest⟩ :=
          Regex.append_eq_append_fence hwritten (at_not_mem_written hpoint)
        obtain ⟨before, after, rfl, rfl, rfl⟩ := ih hrest
        exact ⟨point :: before, after, rfl, written_cons .., rfl⟩

/-- Text without a backslash is written for the same text. -/
theorem eq_append_of_written {text word tail : PyStr}
    (hwritten : written text = word ++ tail) (hword : ofChar '\\' ∉ word) :
    ∃ rest, text = word ++ rest ∧ written word = word := by
  induction word generalizing text with
  | nil => exact ⟨text, rfl, rfl⟩
  | cons symbol word ih =>
      obtain ⟨hsymbol, hothers⟩ := not_or.mp (mt List.mem_cons.mpr hword)
      rcases text with _ | ⟨point, text⟩
      · simp [written] at hwritten
      · rw [written_cons, written_singleton] at hwritten
        rcases escapeAscii_cases point with hplain | ⟨escape, hescape, -⟩
        · rw [hplain] at hwritten
          obtain ⟨rfl, hrest⟩ := List.cons.inj hwritten
          obtain ⟨rest, rfl, hsame⟩ := ih hrest hothers
          refine ⟨rest, rfl, ?_⟩
          rw [written_cons, written_singleton, hplain, hsame]
          rfl
        · rw [hescape] at hwritten
          exact absurd (List.cons.inj hwritten).1 hsymbol

/-! ## Escapes before an at sign -/

/-- A code point outside addresses whose escape ends like the local part of one. -/
def escapesLocally (point : CodePoint) : Bool :=
  !isLocalPoint point && (written [point]).getLast?.any isLocalPoint

theorem escapesLocally_iff {point : CodePoint} :
    escapesLocally point = true ↔ isLocalPoint point = false ∧
      ∃ escape last, written [point] = escape ++ [last] ∧ isLocalPoint last = true := by
  simp only [escapesLocally, Bool.and_eq_true, Bool.not_eq_true', Option.any_eq_true,
    List.getLast?_eq_some_iff]
  constructor
  · rintro ⟨hlocal, last, ⟨escape, hwritten⟩, hlast⟩
    exact ⟨hlocal, escape, last, hwritten, hlast⟩
  · rintro ⟨hlocal, escape, last, hwritten, hlast⟩
    exact ⟨hlocal, last, ⟨escape, hwritten⟩, hlast⟩

/-- What follows the at sign in `_EMAIL_RE`. -/
def domainRegex : Regex CodePoint :=
  .seq
    (.repeated
      (.seq (.repeated (.one isLabelPoint) 1 512) (.one fun point => point == ofChar '.'))
      1 256)
    (.repeated (.one isLetter) 2 512)

/-- An address has a last point before its at sign. -/
theorem exists_of_matches {word : PyStr} (hmatches : emailRegex.Matches word) :
    ∃ front last domain, word = front ++ last :: ofChar '@' :: domain ∧
      isLocalPoint last = true ∧ domainRegex.Matches domain := by
  cases hmatches with
  | @seq _ _ start _ hlocal hrest =>
      cases hrest with
      | @seq _ _ _ domain hat hdomain =>
          cases hat with
          | one haccepts =>
              obtain rfl := beq_iff_eq.mp haccepts
              obtain ⟨hleast, -, hall⟩ := Regex.matches_repeated_one_iff.mp hlocal
              rcases List.eq_nil_or_concat' start with rfl | ⟨front, last, rfl⟩
              · simp at hleast
              · exact ⟨front, last, domain, by simp, hall last (by simp), hdomain⟩

theorem matches_of_domain {last : CodePoint} {domain : PyStr}
    (hlast : isLocalPoint last = true) (hdomain : domainRegex.Matches domain) :
    emailRegex.Matches (last :: ofChar '@' :: domain) := by
  have hlocal : (Regex.repeated (.one isLocalPoint) 1 512).Matches [last] :=
    Regex.matches_repeated_one_iff.mpr ⟨le_rfl, by simp, by simpa using hlast⟩
  have hat : (Regex.one fun point => point == ofChar '@').Matches [ofChar '@'] :=
    .one (beq_self_eq_true _)
  exact .seq hlocal (.seq hat hdomain)

/-- No point of an address is outside its expression. -/
theorem not_avoids_of_domain {domain : PyStr} (hdomain : domainRegex.Matches domain) :
    ∀ point ∈ ofChar '@' :: domain, ¬emailRegex.Avoids point := by
  intro point hpoint havoids
  have haddress := matches_of_domain (by decide : isLocalPoint (ofChar 'a') = true) hdomain
  exact Regex.not_mem_of_avoids haddress havoids (List.mem_cons_of_mem _ hpoint)

section Redacted

variable (hmac : Hmac) {settings : LogSettings}

/-- A string value shows an address within `limit` characters: directly before an at sign
and a domain stands a point whose escape ends like a local part, and no address to be
redacted starts in the domain. -/
def ShowsAddress (settings : LogSettings) (limit : ℕ) (text : PyStr) : Prop :=
  ∃ left point domain right,
    text = left ++ point :: (ofChar '@' :: domain ++ right) ∧ escapesLocally point = true ∧
      domainRegex.Matches domain ∧ written domain = domain ∧
      emailRegex.Untouched (ofChar '@' :: domain) right ∧
      (written (redactText hmac settings left ++ point :: ofChar '@' :: domain)).length ≤ limit

variable {hmac}

/-- Escaped points are outside the expression, and no replacement has them. -/
theorem avoids_of_escapesLocally {point : CodePoint} (hpoint : escapesLocally point = true) :
    emailRegex.Avoids point := by
  refine avoids_emailRegex_iff.mpr ⟨(escapesLocally_iff.mp hpoint).1, ?_⟩
  rintro rfl
  exact absurd hpoint (by decide)

theorem not_mem_replacement (hlog : settings.logPii = false) {point : CodePoint}
    (hpoint : escapesLocally point = true) {word : PyStr} (hmatches : emailRegex.Matches word) :
    point ∉ replacement hmac settings word := by
  obtain ⟨bytes, hreplacement⟩ := replacement_of_matches hmac hlog hmatches
  have hbrackets : ∀ text ∈ [ofString "[pii:", ofString "]"], point ∉ text := by
    have hplain : [ofString "[pii:", ofString "]"].all (·.all (!escapesLocally ·)) = true := by
      decide +kernel
    intro text htext hmem
    have hother := List.all_eq_true.mp (List.all_eq_true.mp hplain text htext) point hmem
    rw [hpoint] at hother
    cases hother
  rw [hreplacement, List.mem_append, List.mem_append, not_or, not_or]
  refine ⟨⟨hbrackets _ (by simp), fun hdigit => ?_⟩, hbrackets _ (by simp)⟩
  have hlocal := isLocalPoint_hexDigest (List.mem_of_mem_take hdigit)
  exact Bool.false_ne_true ((escapesLocally_iff.mp hpoint).1.symm.trans hlocal)

/-- An address in the written text ends the escape of a point before an at sign. -/
theorem exists_of_not_clear_take_written (hclear : emailRegex.Clear text) (limit : ℕ)
    (hshown : ¬emailRegex.Clear ((written text).take limit)) :
    ∃ front point domain rest, text = front ++ point :: (ofChar '@' :: domain ++ rest) ∧
      escapesLocally point = true ∧ domainRegex.Matches domain ∧ written domain = domain ∧
      (written (front ++ point :: ofChar '@' :: domain)).length ≤ limit := by
  simp only [Regex.Clear, not_forall, not_not] at hshown
  obtain ⟨word, ⟨before, behind, hinside⟩, hmatches⟩ := hshown
  obtain ⟨front, last, domain, rfl, hlast, hdomain⟩ := exists_of_matches hmatches
  have hwritten : written text = (before ++ front ++ [last]) ++
      ofChar '@' :: (domain ++ (behind ++ (written text).drop limit)) := by
    calc written text
        = (written text).take limit ++ (written text).drop limit :=
          (List.take_append_drop limit _).symm
      _ = _ := by
          rw [← hinside]
          simp
  obtain ⟨shown, after, rfl, hshown, hafter⟩ := written_eq_append_at hwritten
  have hslash : ofChar '\\' ∉ domain := by
    intro hmem
    exact not_avoids_of_domain hdomain _ (List.mem_cons_of_mem _ hmem)
      (avoids_emailRegex_iff.mpr (by decide))
  obtain ⟨rest, rfl, hplain⟩ := eq_append_of_written hafter hslash
  have hlength : (written (shown ++ ofChar '@' :: domain)).length ≤ limit := by
    have htake := congrArg List.length hinside
    rw [written_append, hshown, written_cons, written_at, hplain]
    simp only [List.length_append, List.length_cons, List.length_nil, List.length_take] at htake ⊢
    omega
  rcases List.eq_nil_or_concat' shown with rfl | ⟨front', point, rfl⟩
  · simp [written] at hshown
  obtain ⟨escape, other, hpoint⟩ := exists_written_eq_concat point
  obtain rfl : other = last := by
    rw [written_append, hpoint, ← List.append_assoc] at hshown
    exact List.singleton_inj.mp (List.append_inj_right' hshown rfl)
  have hlocal : isLocalPoint point = false := by
    by_contra hlocal
    have haddress := matches_of_domain (Bool.not_eq_false _ ▸ hlocal) hdomain
    exact hclear _ ⟨front', rest, by simp⟩ haddress
  exact ⟨front', point, domain, rest, by simp,
    escapesLocally_iff.mpr ⟨hlocal, escape, other, hpoint, hlast⟩, hdomain, hplain,
    by simpa using hlength⟩

/-- What is written of a redacted text holds no address, unless it shows one. -/
theorem clear_take_written_redactText_iff (hlog : settings.logPii = false) (text : PyStr)
    (limit : ℕ) :
    emailRegex.Clear ((written (redactText hmac settings text)).take limit) ↔
      ¬ShowsAddress hmac settings limit text := by
  rw [← not_iff_not, not_not]
  constructor
  · intro hshown
    obtain ⟨front, point, domain, rest, hredacted, hpoint, hdomain, hplain, hlength⟩ :=
      exists_of_not_clear_take_written (clear_redactText hmac hlog text) limit hshown
    obtain ⟨left, right, rfl, rfl, hright⟩ := Regex.sub_eq_append_fence not_matches_nil
      (avoids_of_escapesLocally hpoint)
      (fun _ hmatches => not_mem_replacement hlog hpoint hmatches) hredacted
    obtain ⟨behind, rfl, huntouched⟩ := (Regex.prefix_sub_iff not_matches_nil
      (fun _ hmatches => sealed_replacement hmac hlog hmatches)
      (not_avoids_of_domain hdomain)).mp ⟨rest, hright.symm⟩
    exact ⟨left, point, domain, behind, rfl, hpoint, hdomain, hplain, huntouched, hlength⟩
  · rintro ⟨left, point, domain, right, rfl, hpoint, hdomain, hplain, huntouched, hlength⟩ hclear
    obtain ⟨-, escape, last, hwritten, hlast⟩ := escapesLocally_iff.mp hpoint
    refine hclear (last :: ofChar '@' :: domain) ?_ (matches_of_domain hlast hdomain)
    have hredacted : redactText hmac settings
        (left ++ point :: (ofChar '@' :: domain ++ right)) =
          (redactText hmac settings left ++ point :: ofChar '@' :: domain) ++
            redactText hmac settings right := by
      rw [redactText, Regex.sub_append_fence not_matches_nil (avoids_of_escapesLocally hpoint),
        Regex.sub_append_of_untouched huntouched]
      simp [redactText]
    have haddress : written (redactText hmac settings left ++ point :: ofChar '@' :: domain) =
        written (redactText hmac settings left) ++ escape ++ last :: ofChar '@' :: domain := by
      rw [written_append, written_cons, hwritten, written_cons, written_at, hplain]
      simp
    have hinside : written (redactText hmac settings left ++ point :: ofChar '@' :: domain) <+:
        (written (redactText hmac settings
          (left ++ point :: (ofChar '@' :: domain ++ right)))).take limit := by
      rw [hredacted]
      exact List.prefix_take_iff.mpr ⟨⟨_, (written_append _ _).symm⟩, hlength⟩
    rw [haddress] at hinside
    exact (List.suffix_append ..).isInfix.trans hinside.isInfix

end Redacted

/-! ## Shown texts -/

/-- What a preview shows of a document. -/
inductive Shown where
  /-- a key or a float, as it is -/
  | plain (text : PyStr)
  /-- a string value, of which `limit` characters are shown once it is redacted -/
  | value (text : PyStr) (limit : ℕ)
  deriving DecidableEq

theorem clear_take_dumpsStr_iff {text : PyStr} (limit : ℕ) :
    emailRegex.Clear (((dumpsStr text).map ofChar).take limit) ↔
      emailRegex.Clear ((written text).take (limit - 1)) :=
  clear_take_bracketed_iff (avoids_emailRegex_iff.mpr (by decide))
    (avoids_emailRegex_iff.mpr (by decide)) limit

section Preview

variable [PyRuntime] (hmac : Hmac) (settings : LogSettings)

def Shown.Clear : Shown → Prop
  | .plain text => emailRegex.Clear text
  | .value text limit => ¬ShowsAddress hmac settings limit text

/-- No address in anything that is shown. -/
def AllClear (shown : List Shown) : Prop :=
  ∀ text ∈ shown, text.Clear hmac settings

variable {hmac settings}

omit [PyRuntime] in
theorem allClear_nil : AllClear hmac settings [] :=
  fun _ htext => absurd htext List.not_mem_nil

omit [PyRuntime] in
theorem allClear_append {first second : List Shown} :
    AllClear hmac settings (first ++ second) ↔
      AllClear hmac settings first ∧ AllClear hmac settings second := by
  simp only [AllClear, List.mem_append, or_imp, forall_and]

omit [PyRuntime] in
theorem allClear_singleton {shown : Shown} :
    AllClear hmac settings [shown] ↔ shown.Clear hmac settings := by
  simp only [AllClear, List.mem_singleton, forall_eq]

variable (hmac settings)

/-- The text of a value in a preview. -/
def previewText (value : Json) : List Char :=
  dumps defaultSeparators (sanitize hmac settings value)

def previewField (field : PyStr × Json) : List Char :=
  dumpsField defaultSeparators (sanitizeField hmac settings field)

mutual

/-- What the first `limit` characters of the preview show: the keys, the string values and
the floats, of which nothing is known. -/
def shownTexts (limit : ℕ) : Json → List Shown
  | .str value => [.value value (limit - 1)]
  | .float text => [.plain ((writtenFloat text).take limit)]
  | .list items => shownItems (limit - 1) items
  | .dict fields => shownFields (limit - 1) fields
  | _ => []

def shownItems (limit : ℕ) : List Json → List Shown
  | [] => []
  | item :: items =>
    shownTexts limit item ++
      shownItems (limit - (previewText hmac settings item).length - 2) items

def shownField (limit : ℕ) : PyStr × Json → List Shown
  | (key, nested) =>
    .plain ((written key).take (limit - 1)) ::
      if isSensitive key then [] else shownTexts (limit - (dumpsStr key).length - 2) nested

def shownFields (limit : ℕ) : List (PyStr × Json) → List Shown
  | [] => []
  | field :: fields =>
    shownField limit field ++
      shownFields (limit - (previewField hmac settings field).length - 2) fields

end

mutual

/-- A cut preview holds an address exactly when one of the texts it shows does, as far
as it shows it. -/
theorem clear_take_dumps_iff (hlog : settings.logPii = false) (value : Json) (limit : ℕ) :
    emailRegex.Clear
        (((dumps defaultSeparators (sanitize hmac settings value)).map ofChar).take limit) ↔
      AllClear hmac settings (shownTexts hmac settings limit value) := by
  cases value with
  | null =>
      have hword : '@' ∉ dumps defaultSeparators .null := by decide
      exact iff_of_true (clear_take_word hword limit) allClear_nil
  | bool value =>
      have hword : '@' ∉ dumps defaultSeparators (.bool value) := by cases value <;> decide
      exact iff_of_true (clear_take_word hword limit) allClear_nil
  | int value =>
      exact iff_of_true (clear_take_word (at_not_mem_toString value) limit) allClear_nil
  | float text =>
      rw [shownTexts, allClear_singleton]
      rfl
  | str value =>
      rw [shownTexts, allClear_singleton, sanitize, dumps]
      exact (clear_take_dumpsStr_iff limit).trans
        (clear_take_written_redactText_iff hlog value (limit - 1))
  | list items =>
      rw [shownTexts, sanitize, dumps, ← clear_take_dumpsItems_iff hlog items]
      exact clear_take_bracketed_iff (avoids_emailRegex_iff.mpr (by decide))
        (avoids_emailRegex_iff.mpr (by decide)) limit
  | dict fields =>
      rw [shownTexts, sanitize, dumps, ← clear_take_dumpsFields_iff hlog fields]
      exact clear_take_bracketed_iff (avoids_emailRegex_iff.mpr (by decide))
        (avoids_emailRegex_iff.mpr (by decide)) limit

theorem clear_take_dumpsItems_iff (hlog : settings.logPii = false) (items : List Json)
    (limit : ℕ) :
    emailRegex.Clear
        (((dumpsItems defaultSeparators (sanitizeItems hmac settings items)).map ofChar).take
          limit) ↔
      AllClear hmac settings (shownItems hmac settings limit items) := by
  cases items with
  | nil =>
      rw [sanitizeItems, dumpsItems, List.map_nil, List.take_nil]
      exact iff_of_true clear_nil allClear_nil
  | cons item rest =>
      have hitem := clear_take_dumps_iff hlog item limit
      have hrest := clear_take_dumpsItems_iff hlog rest
        (limit - (previewText hmac settings item).length - 2)
      rw [shownItems, allClear_append, ← hitem, ← hrest, sanitizeItems]
      cases rest with
      | nil =>
          rw [sanitizeItems, dumpsItems, dumpsItems, List.map_nil, List.take_nil]
          simp only [clear_nil, and_true]
      | cons other rest =>
          rw [sanitizeItems, dumpsItems]
          · exact clear_take_separated_iff (avoids_emailRegex_iff.mpr (by decide)) limit
          · exact List.cons_ne_nil _ _

theorem clear_take_dumpsField_iff (hlog : settings.logPii = false) (field : PyStr × Json)
    (limit : ℕ) :
    emailRegex.Clear
        (((dumpsField defaultSeparators (sanitizeField hmac settings field)).map ofChar).take
          limit) ↔
      AllClear hmac settings (shownField hmac settings limit field) := by
  obtain ⟨key, nested⟩ := field
  have hnested := clear_take_dumps_iff hlog nested (limit - (dumpsStr key).length - 2)
  rw [sanitizeField, dumpsField, shownField, ← List.singleton_append, allClear_append,
    allClear_singleton, Shown.Clear, ← clear_take_dumpsStr_iff]
  refine (clear_take_separated_iff (avoids_emailRegex_iff.mpr (by decide)) limit).trans ?_
  split_ifs
  · have hredacted : emailRegex.Clear
        (((dumps defaultSeparators (.str (ofString "[redacted]"))).map ofChar).take
          (limit - (dumpsStr key).length - 2)) :=
      clear_take_word (by decide +kernel) _
    simp only [hredacted, allClear_nil]
  · rw [hnested]

theorem clear_take_dumpsFields_iff (hlog : settings.logPii = false)
    (fields : List (PyStr × Json)) (limit : ℕ) :
    emailRegex.Clear
        (((dumpsFields defaultSeparators (sanitizeFields hmac settings fields)).map ofChar).take
          limit) ↔
      AllClear hmac settings (shownFields hmac settings limit fields) := by
  cases fields with
  | nil =>
      rw [sanitizeFields, dumpsFields, List.map_nil, List.take_nil]
      exact iff_of_true clear_nil allClear_nil
  | cons field rest =>
      have hfield := clear_take_dumpsField_iff hlog field limit
      have hrest := clear_take_dumpsFields_iff hlog rest
        (limit - (previewField hmac settings field).length - 2)
      rw [shownFields, allClear_append, ← hfield, ← hrest, sanitizeFields]
      cases rest with
      | nil =>
          rw [sanitizeFields, dumpsFields, dumpsFields, List.map_nil, List.take_nil]
          simp only [clear_nil, and_true]
      | cons other rest =>
          rw [sanitizeFields, dumpsFields]
          · exact clear_take_separated_iff (avoids_emailRegex_iff.mpr (by decide)) limit
          · exact List.cons_ne_nil _ _

end

theorem sanitizeFields_eq_map (fields : List (PyStr × Json)) :
    sanitizeFields hmac settings fields = fields.map (sanitizeField hmac settings) := by
  induction fields with
  | nil => rfl
  | cons field rest ih => rw [sanitizeFields, ih, List.map_cons]

theorem sanitizeField_fst (field : PyStr × Json) :
    (sanitizeField hmac settings field).1 = field.1 := by
  obtain ⟨key, nested⟩ := field
  rfl

mutual

/-- Sanitizing keeps the keys and so their order. -/
theorem sortKeys_sanitize (value : Json) :
    sortKeys (sanitize hmac settings value) = sanitize hmac settings (sortKeys value) := by
  cases value with
  | dict fields =>
      rw [sanitize, sortKeys, sortKeys, sanitize, sortFields_sanitize fields,
        sanitizeFields_eq_map, sanitizeFields_eq_map]
      congr 1
      exact (List.map_insertionSort (fun left right : PyStr × Json => left.1 ≤ right.1)
        (fun left right : PyStr × Json => left.1 ≤ right.1) (sanitizeField hmac settings)
        (sortFields fields) fun left _ right _ => by
          rw [sanitizeField_fst, sanitizeField_fst]).symm
  | list items =>
      rw [sanitize, sortKeys, sortKeys, sanitize, sortItems_sanitize items]
  | _ => rfl

theorem sortItems_sanitize (items : List Json) :
    sortItems (sanitizeItems hmac settings items) =
      sanitizeItems hmac settings (sortItems items) := by
  cases items with
  | nil => rfl
  | cons item rest =>
      rw [sanitizeItems, sortItems, sortItems, sanitizeItems, sortKeys_sanitize item,
        sortItems_sanitize rest]

theorem sortFields_sanitize (fields : List (PyStr × Json)) :
    sortFields (sanitizeFields hmac settings fields) =
      sanitizeFields hmac settings (sortFields fields) := by
  cases fields with
  | nil => rfl
  | cons field rest =>
      rw [sanitizeFields, sortFields, sortFields, sanitizeFields, sortField_sanitize field,
        sortFields_sanitize rest]

theorem sortField_sanitize (field : PyStr × Json) :
    sortField (sanitizeField hmac settings field) =
      sanitizeField hmac settings (sortField field) := by
  obtain ⟨key, nested⟩ := field
  rw [sanitizeField, sortField, sortField, sanitizeField]
  have hnested := sortKeys_sanitize nested
  split_ifs
  · rfl
  · rw [hnested]

end

/-- The preview that is logged, if one is, holds no address. -/
def NoAddress (outcome : Except LoadsError PyStr) : Prop :=
  ∀ preview, outcome = .ok preview → emailRegex.Clear preview

/-- Without `log_pii`, the preview at the default limit holds no address exactly when
the body, cut to the limit, is no JSON document that gets a preview, or one of whose
shown texts none holds an address. -/
theorem noAddress_iff (hlog : settings.logPii = false) (stack : StackLimits)
    (body : PyStr) :
    NoAddress (safeResponseBodyText hmac settings stack 512 body) ↔
      ∀ parsed, loadsText stack.containers (upTo 512 body) = .ok parsed →
        (sanitize hmac settings parsed).depth ≤ stack.calls →
        AllClear hmac settings (shownTexts hmac settings 512 (sortKeys parsed)) := by
  have hcut : ∀ parsed, emailRegex.Clear
      (upTo 512 (dumpsSorted (sanitize hmac settings parsed))) ↔
        AllClear hmac settings (shownTexts hmac settings 512 (sortKeys parsed)) := by
    intro parsed
    rw [← clear_take_dumps_iff hmac settings hlog, ← sortKeys_sanitize]
    rfl
  rw [safeResponseBodyText]
  rcases hloads : loadsText stack.containers (upTo 512 body) with error | parsed
  · refine iff_of_true ?_ fun parsed hparsed => by cases hparsed
    intro preview hpreview
    cases error with
    | jsonDecode =>
        obtain rfl := Except.ok.inj hpreview
        exact clear_redactText hmac hlog _
    | _ => cases hpreview
  · dsimp only
    split_ifs with hdepth
    · refine iff_of_true (fun preview hpreview => by cases hpreview) ?_
      intro other hother hcalls
      obtain rfl := Except.ok.inj hother
      exact absurd hdepth (Nat.not_lt.mpr hcalls)
    · constructor
      · intro hno other hother _
        obtain rfl := Except.ok.inj hother
        exact (hcut parsed).mp (hno _ rfl)
      · intro hshown preview hpreview
        obtain rfl := Except.ok.inj hpreview
        exact (hcut parsed).mpr (hshown parsed rfl (Nat.not_lt.mp hdepth))

end Preview

section Sample

open scoped SsfTransmitter.Python.Ascii

def sampleHmac : Hmac :=
  fun _ message => message

def quietSettings : LogSettings where
  logPii := false
  piiKey := ""

def sampleStack : StackLimits where
  containers := 100
  calls := 100

/-- An address as a value. -/
def addressValue : PyStr :=
  ofString "\x7b\"mail\": \"bob@x.org\"\x7d"

theorem noAddress_addressValue :
    NoAddress (safeResponseBodyText sampleHmac quietSettings sampleStack 512 addressValue) := by
  refine (noAddress_iff sampleHmac quietSettings rfl sampleStack addressValue).mpr ?_
  intro parsed hparsed _
  have hloads : (loadsText sampleStack.containers (upTo 512 addressValue)).toOption =
      some (.dict [(ofString "mail", .str (ofString "bob@x.org"))]) := by
    decide +kernel
  rw [hparsed] at hloads
  obtain rfl := Option.some.inj hloads
  have hshown : shownTexts sampleHmac quietSettings 512
      (sortKeys (.dict [(ofString "mail", .str (ofString "bob@x.org"))])) =
        [.plain (ofString "mail"), .value (ofString "bob@x.org") 502] := by
    decide +kernel
  have hvalue : emailRegex.Clear ((written (redactText sampleHmac quietSettings
      (ofString "bob@x.org"))).take 502) :=
    clear_of_not_mem_at (by decide +kernel)
  rw [hshown]
  exact List.forall_mem_cons.mpr ⟨clear_of_not_mem_at (by decide),
    List.forall_mem_singleton.mpr ((clear_take_written_redactText_iff rfl _ _).mp hvalue)⟩

/-- An address as a key. -/
def addressKey : PyStr :=
  ofString "\x7b\"a@b.co\": 1\x7d"

/-- The keys of a document are shown as they are. -/
theorem addressKey_shown :
    ¬NoAddress (safeResponseBodyText sampleHmac quietSettings sampleStack 512 addressKey) := by
  intro hno
  have hpreview :
      (safeResponseBodyText sampleHmac quietSettings sampleStack 512 addressKey).toOption =
        some addressKey := by
    decide +kernel
  have haddress : [] ∈ emailRegex.ends (ofString "a@b.co") := by decide +kernel
  obtain ⟨word, hword, hmatches⟩ := Regex.mem_ends_iff.mp haddress
  rw [List.append_nil] at hword
  have hinside : word <:+: addressKey := by
    rw [← hword]
    exact ⟨ofString "\x7b\"", ofString "\": 1\x7d", by decide +kernel⟩
  rcases houtcome : safeResponseBodyText sampleHmac quietSettings sampleStack 512 addressKey
    with error | preview
  · rw [houtcome] at hpreview
    cases hpreview
  · rw [houtcome] at hpreview
    obtain rfl := Option.some.inj hpreview
    exact hno _ houtcome word hinside hmatches

end Sample

end SsfTransmitter.Security
