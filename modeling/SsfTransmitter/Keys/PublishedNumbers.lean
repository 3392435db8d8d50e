import SsfTransmitter.Keys.SigningKey
import SsfTransmitter.Python.Quote
import Mathlib.Data.Nat.Digits.Lemmas

/-!
# The numbers of the published key

A receiver has nothing but the served JWKS.  It reads the modulus and the exponent of a key
as unsigned integers in base64url, and these are the numbers of the key that signs.
-/

namespace SsfTransmitter.Keys

open SsfTransmitter.Core
open SsfTransmitter.Python
open SsfTransmitter.Store

/-! ## Reading an unsigned integer -/

/-- The characters without their padding, and the padding that they need again. -/
def repadded (chars : List Char) : List Char :=
  chars ++ List.replicate ((4 - chars.length % 4) % 4) '='

/-- The unsigned integer that a text encodes: characters of base64url and no padding, for
big-endian octets of which the first is not zero. -/
def uintOf (text : PyStr) : Option ℕ :=
  let chars := text.map asciiChar
  if chars.all fun char => (base64Value char).isSome then
    (urlsafeB64decode (repadded chars)).bind fun octets =>
      if octets.head? = some 0 then none else some (Nat.ofDigits 256 octets.reverse)
  else none

/-- Encoded octets are characters of the alphabet and at most two of padding. -/
theorem exists_urlsafeB64encode_eq {bytes : List ℕ} (hbytes : ∀ byte ∈ bytes, byte < 256) :
    ∃ (sextets : List ℕ) (pads : ℕ), (∀ sextet ∈ sextets, sextet < 64) ∧ pads < 3 ∧
      urlsafeB64encode bytes = sextets.map base64Char ++ List.replicate pads '=' := by
  induction bytes using urlsafeB64encode.induct with
  | case1 => exact ⟨[], 0, by simp, by decide, rfl⟩
  | case2 first =>
      have hfirst := hbytes first (by simp)
      have hone : first / 4 < 64 := by omega
      have htwo : first % 4 * 16 < 64 := by omega
      exact ⟨[first / 4, first % 4 * 16], 2, by simp [hone, htwo], by decide, rfl⟩
  | case3 first second =>
      have hfirst := hbytes first (by simp)
      have hsecond := hbytes second (by simp)
      have hone : first / 4 < 64 := by omega
      have htwo : first % 4 * 16 + second / 16 < 64 := by omega
      have hthree : second % 16 * 4 < 64 := by omega
      exact ⟨[first / 4, first % 4 * 16 + second / 16, second % 16 * 4], 1,
        by simp [hone, htwo, hthree], by decide, rfl⟩
  | case4 first second third rest ih =>
      have hfirst := hbytes first (by simp)
      have hsecond := hbytes second (by simp)
      have hthird := hbytes third (by simp)
      have hone : first / 4 < 64 := by omega
      have htwo : first % 4 * 16 + second / 16 < 64 := by omega
      have hthree : second % 16 * 4 + third / 64 < 64 := by omega
      have hfour : third % 64 < 64 := by omega
      obtain ⟨sextets, pads, hsextets, hpads, hrest⟩ :=
        ih fun byte hbyte => hbytes byte (by simp [hbyte])
      refine ⟨first / 4 :: (first % 4 * 16 + second / 16) :: (second % 16 * 4 + third / 64) ::
        third % 64 :: sextets, pads, ?_, hpads, ?_⟩
      · simp only [List.mem_cons, forall_eq_or_imp]
        exact ⟨hone, htwo, hthree, hfour, hsextets⟩
      · rw [urlsafeB64encode, hrest]
        rfl

/-- Dropping the padding leaves the characters before it. -/
theorem rdropWhile_padding {sextets : List ℕ} (hsextets : ∀ sextet ∈ sextets, sextet < 64)
    (pads : ℕ) :
    (sextets.map base64Char ++ List.replicate pads '=').rdropWhile (· == '=') =
      sextets.map base64Char := by
  induction pads with
  | zero =>
      rw [List.replicate_zero, List.append_nil, List.rdropWhile_eq_self_iff]
      intro hnonempty hlast
      obtain ⟨sextet, hsextet, hchar⟩ := List.mem_map.mp (List.getLast_mem hnonempty)
      apply base64Char_ne_pad (hsextets sextet hsextet)
      rw [hchar]
      exact beq_iff_eq.mp hlast
  | succ pads ih =>
      rw [List.replicate_succ', ← List.append_assoc, List.rdropWhile_concat_pos _ _ _ rfl, ih]

/-- The padding that the characters need is what was dropped. -/
theorem repadded_eq {chars : List Char} {pads : ℕ} (hpads : pads < 3)
    (hlength : (chars ++ List.replicate pads '=').length % 4 = 0) :
    repadded chars = chars ++ List.replicate pads '=' := by
  rw [List.length_append, List.length_replicate] at hlength
  have hcount : (4 - chars.length % 4) % 4 = pads := by omega
  rw [repadded, hcount]

theorem map_asciiChar_asciiText {sextets : List ℕ}
    (hsextets : ∀ sextet ∈ sextets, sextet < 64) :
    (asciiText (sextets.map base64Char)).map asciiChar = sextets.map base64Char := by
  simp only [asciiText, List.map_map]
  apply List.map_congr_left
  intro sextet hsextet
  exact asciiChar_ofChar (base64Char_lt sextet (hsextets sextet hsextet))

/-- The octets of a number have no zero in front. -/
theorem head?_reverse_digits_ne (value : ℕ) : (Nat.digits 256 value).reverse.head? ≠ some 0 := by
  rw [List.head?_reverse]
  by_cases hzero : value = 0
  · simp [hzero]
  · rw [List.getLast?_eq_some_getLast (Nat.digits_ne_nil_iff_ne_zero.mpr hzero), ne_eq,
      Option.some.injEq]
    exact Nat.getLast_digit_ne_zero 256 hzero

/-- Every unsigned integer is read back from the text that encodes it. -/
theorem uintOf_b64urlUint (value : ℕ) : uintOf (b64urlUint value) = some value := by
  have hbytes : ∀ byte ∈ (Nat.digits 256 value).reverse, byte < 256 := by
    intro byte hbyte
    exact Nat.digits_lt_base (by decide) (List.mem_reverse.mp hbyte)
  obtain ⟨sextets, pads, hsextets, hpads, hencode⟩ := exists_urlsafeB64encode_eq hbytes
  have htext : (b64urlUint value).map asciiChar = sextets.map base64Char := by
    rw [b64urlUint, hencode, rdropWhile_padding hsextets, map_asciiChar_asciiText hsextets]
  have halphabet : (sextets.map base64Char).all fun char => (base64Value char).isSome := by
    rw [List.all_map, List.all_eq_true]
    intro sextet hsextet
    simp [base64Value_base64Char (hsextets sextet hsextet)]
  have hpadded : repadded (sextets.map base64Char) =
      urlsafeB64encode (Nat.digits 256 value).reverse := by
    rw [hencode]
    apply repadded_eq hpads
    rw [← hencode]
    exact length_urlsafeB64encode_mod _
  rw [uintOf, htext, if_pos halphabet, hpadded, urlsafeB64decode_urlsafeB64encode hbytes,
    Option.bind_some, if_neg (head?_reverse_digits_ne value), List.reverse_reverse,
    Nat.ofDigits_digits]

/-! ## The published key -/

/-- The number in a member of a JWK. -/
def numberOf (jwk : Dict) (member : PyStr) : Option ℕ :=
  match Dict.get? jwk member with
  | some (.str text) => uintOf text
  | _ => none

section Published

variable [PyRuntime] {PrivateKey Signature : Type} {rsa : Rsa PrivateKey Signature}
variable {dir : KeysDir}

omit [PyRuntime] in
theorem PublicHalf.numbers {privateKey : PrivateKey} {jwk : Dict}
    (hpublic : PublicHalf rsa privateKey jwk) :
    numberOf jwk "n" = some (rsa.modulus privateKey) ∧
      numberOf jwk "e" = some (rsa.exponent privateKey) := by
  constructor
  · rw [numberOf, hpublic.modulus]
    exact uintOf_b64urlUint _
  · rw [numberOf, hpublic.exponent]
    exact uintOf_b64urlUint _

/-- The served JWKS has first the JWK of a key, with a `kid` and the numbers of the key. -/
def Publishes (rsa : Rsa PrivateKey Signature) (dir : KeysDir) (kid : PyStr)
    (privateKey : PrivateKey) : Prop :=
  ∃ jwks jwk others, loadJwks dir = .ok jwks ∧ keysOf jwks = .ok (.dict jwk :: others) ∧
    Dict.get? jwk "kid" = some (.str kid) ∧ numberOf jwk "n" = some (rsa.modulus privateKey) ∧
    numberOf jwk "e" = some (rsa.exponent privateKey)

/-- With consistent files, every SET is signed by the key whose numbers are published. -/
theorem Consistent.publishes (hconsistent : Consistent rsa dir) :
    ∃ privateKey kid, Publishes rsa dir kid privateKey ∧ ∀ message,
      signSet rsa dir message = .ok ⟨kid, message, rsa.sign privateKey message⟩ := by
  obtain ⟨pem, privateKey, jwks, jwk, others, hpem, hload, hjwks, hkeys, hpublic⟩ :=
    hconsistent
  obtain ⟨kid, hkid, hnonempty⟩ := hpublic.kid
  obtain ⟨hmodulus, hexponent⟩ := hpublic.numbers
  exact ⟨privateKey, kid, ⟨jwks, jwk, others, hjwks, hkeys, hkid, hmodulus, hexponent⟩,
    signSet_eq hpem hload hjwks hkeys hkid hnonempty⟩

/-- After calls that crash only where no harm is done, a call that completes leaves a JWKS
from which a receiver reads the numbers of the key that signs every SET, under the `kid` of
the SET. -/
theorem ensureKeys_publishes (hrsa : rsa.Documented)
    (hreach : (keysSystem rsa).ReachableWhere (Harmless rsa) dir) (generated : PrivateKey)
    {after : KeysDir}
    (hstep : (keysSystem rsa).step dir (.completes generated) = some after) :
    ∃ privateKey kid, Publishes rsa after kid privateKey ∧ ∀ message,
      signSet rsa after message = .ok ⟨kid, message, rsa.sign privateKey message⟩ := by
  obtain rfl := Option.some.inj hstep
  have hconsistent := consistent_of_completes hrsa generated
    fun hprivate hjwks => consistent_of_reachableWhere hrsa hreach hprivate hjwks
  exact hconsistent.publishes

end Published

section Sample

open scoped SsfTransmitter.Python.Ascii

/-- The first start crashes while it writes the private key, the second completes. -/
theorem ensureKeys_publishes_sample :
    ∃ privateKey kid, Publishes sampleRsa
      ⟨some (SampleKey.pem .second), some (jwksText sampleRsa .second)⟩ kid privateKey ∧
      ∀ message, signSet sampleRsa
        ⟨some (SampleKey.pem .second), some (jwksText sampleRsa .second)⟩ message =
          .ok ⟨kid, message, sampleRsa.sign privateKey message⟩ := by
  have hreach : (keysSystem sampleRsa).ReachableWhere (Harmless sampleRsa)
      ⟨some ['-', '-'], none⟩ := by
    have hstart : (keysSystem sampleRsa).ReachableWhere (Harmless sampleRsa) ⟨none, none⟩ :=
      .start fun hprivate => absurd hprivate Bool.false_ne_true
    have hharmless : Harmless sampleRsa ⟨none, none⟩ (.crashes .first 3) :=
      .inr (.inr (.inl ⟨rfl, by decide +kernel⟩))
    exact hstart.step hharmless (by decide +kernel)
  exact ensureKeys_publishes sampleRsa_documented hreach .second
    (congrArg some (written_all _ _))

end Sample

end SsfTransmitter.Keys
