import SsfTransmitter.Store.Encryption

/-!
# The wire format of Fernet tokens

Fernet writes its tokens in URL-safe base64.  The encoder of the library is
modelled next to the decoder that `app.crypto` applies to stored text, and what
the library documents about its tokens is shown to pass the code's test.
-/

namespace SsfTransmitter.Store

/-! ## Base64 -/

/-- The character that URL-safe base64 has for six bits. -/
def base64Char (value : ℕ) : Char :=
  if value < 26 then Char.ofNat ('A'.toNat + value)
  else if value < 52 then Char.ofNat ('a'.toNat + (value - 26))
  else if value < 62 then Char.ofNat ('0'.toNat + (value - 52))
  else if value = 62 then '-'
  else '_'

/-- `base64.urlsafe_b64encode` -/
def urlsafeB64encode : List ℕ → List Char
  | [] => []
  | [first] => [base64Char (first / 4), base64Char (first % 4 * 16), '=', '=']
  | [first, second] =>
    [base64Char (first / 4), base64Char (first % 4 * 16 + second / 16),
      base64Char (second % 16 * 4), '=']
  | first :: second :: third :: rest =>
    base64Char (first / 4) :: base64Char (first % 4 * 16 + second / 16) ::
      base64Char (second % 16 * 4 + third / 64) :: base64Char (third % 64) ::
        urlsafeB64encode rest

private theorem base64Char_table :
    ∀ value < 64, base64Value (base64Char value) = some value ∧
      base64Char value ≠ '=' ∧ (base64Char value).toNat < 128 := by
  decide

theorem base64Value_base64Char {value : ℕ} (hvalue : value < 64) :
    base64Value (base64Char value) = some value :=
  (base64Char_table value hvalue).1

theorem base64Char_ne_pad {value : ℕ} (hvalue : value < 64) : base64Char value ≠ '=' :=
  (base64Char_table value hvalue).2.1

theorem base64Char_lt (value : ℕ) (hvalue : value < 64) :
    (base64Char value).toNat < 128 :=
  (base64Char_table value hvalue).2.2

section Decoding

variable {held pads value : ℕ} (hvalue : value < 64) (rest : List Char)

include hvalue

theorem decodeBase64_first :
    decodeBase64 0 held pads (base64Char value :: rest) = decodeBase64 1 value 0 rest := by
  simp only [decodeBase64, if_neg (base64Char_ne_pad hvalue), base64Value_base64Char hvalue]

theorem decodeBase64_second :
    decodeBase64 1 held pads (base64Char value :: rest) =
      (decodeBase64 2 (value % 16) 0 rest).map ((held * 4 + value / 16) :: ·) := by
  simp only [decodeBase64, if_neg (base64Char_ne_pad hvalue), base64Value_base64Char hvalue]

theorem decodeBase64_third :
    decodeBase64 2 held pads (base64Char value :: rest) =
      (decodeBase64 3 (value % 4) 0 rest).map ((held * 16 + value / 4) :: ·) := by
  simp only [decodeBase64, if_neg (base64Char_ne_pad hvalue), base64Value_base64Char hvalue]

theorem decodeBase64_fourth :
    decodeBase64 3 held pads (base64Char value :: rest) =
      (decodeBase64 0 0 0 rest).map ((held * 64 + value) :: ·) := by
  simp only [decodeBase64, if_neg (base64Char_ne_pad hvalue), base64Value_base64Char hvalue]

end Decoding

theorem decodeBase64_urlsafeB64encode {bytes : List ℕ}
    (hbytes : ∀ byte ∈ bytes, byte < 256) :
    decodeBase64 0 0 0 (urlsafeB64encode bytes) = some bytes := by
  induction bytes using urlsafeB64encode.induct with
  | case1 => rfl
  | case2 first =>
      have hfirst := hbytes first (by simp)
      have hone : first / 4 * 4 + first % 4 * 16 / 16 = first := by omega
      rw [urlsafeB64encode, decodeBase64_first (by omega),
        decodeBase64_second (by omega), hone]
      rfl
  | case3 first second =>
      have hfirst := hbytes first (by simp)
      have hsecond := hbytes second (by simp)
      have hone : first / 4 * 4 + (first % 4 * 16 + second / 16) / 16 = first := by omega
      have htwo : (first % 4 * 16 + second / 16) % 16 * 16 + second % 16 * 4 / 4 =
          second := by omega
      rw [urlsafeB64encode, decodeBase64_first (by omega),
        decodeBase64_second (by omega), decodeBase64_third (by omega), hone, htwo]
      rfl
  | case4 first second third rest ih =>
      have hfirst := hbytes first (by simp)
      have hsecond := hbytes second (by simp)
      have hthird := hbytes third (by simp)
      have hone : first / 4 * 4 + (first % 4 * 16 + second / 16) / 16 = first := by omega
      have htwo : (first % 4 * 16 + second / 16) % 16 * 16 +
          (second % 16 * 4 + third / 64) / 4 = second := by omega
      have hthree : (second % 16 * 4 + third / 64) % 4 * 64 + third % 64 = third := by
        omega
      rw [urlsafeB64encode, decodeBase64_first (by omega),
        decodeBase64_second (by omega), decodeBase64_third (by omega),
        decodeBase64_fourth (by omega), hone, htwo, hthree,
        ih fun byte hbyte => hbytes byte (by simp [hbyte])]
      rfl

theorem length_urlsafeB64encode_mod (bytes : List ℕ) :
    (urlsafeB64encode bytes).length % 4 = 0 := by
  induction bytes using urlsafeB64encode.induct with
  | case1 => simp [urlsafeB64encode]
  | case2 first => simp [urlsafeB64encode]
  | case3 first second => simp [urlsafeB64encode]
  | case4 first second third rest ih =>
      simp only [urlsafeB64encode, List.length_cons]
      omega

theorem ascii_urlsafeB64encode {bytes : List ℕ} (hbytes : ∀ byte ∈ bytes, byte < 256) :
    ∀ char ∈ urlsafeB64encode bytes, char.toNat < 128 := by
  induction bytes using urlsafeB64encode.induct with
  | case1 => simp [urlsafeB64encode]
  | case2 first =>
      have hfirst := hbytes first (by simp)
      have hone := base64Char_lt (first / 4) (by omega)
      have htwo := base64Char_lt (first % 4 * 16) (by omega)
      simp [urlsafeB64encode, hone, htwo]
  | case3 first second =>
      have hfirst := hbytes first (by simp)
      have hsecond := hbytes second (by simp)
      have hone := base64Char_lt (first / 4) (by omega)
      have htwo := base64Char_lt (first % 4 * 16 + second / 16) (by omega)
      have hthree := base64Char_lt (second % 16 * 4) (by omega)
      simp [urlsafeB64encode, hone, htwo, hthree]
  | case4 first second third rest ih =>
      have hfirst := hbytes first (by simp)
      have hsecond := hbytes second (by simp)
      have hthird := hbytes third (by simp)
      have hone := base64Char_lt (first / 4) (by omega)
      have htwo := base64Char_lt (first % 4 * 16 + second / 16) (by omega)
      have hthree := base64Char_lt (second % 16 * 4 + third / 64) (by omega)
      have hfour := base64Char_lt (third % 64) (by omega)
      simpa [urlsafeB64encode, hone, htwo, hthree, hfour] using
        ih fun byte hbyte => hbytes byte (by simp [hbyte])

/-- Encoded bytes are decoded. -/
theorem urlsafeB64decode_urlsafeB64encode {bytes : List ℕ}
    (hbytes : ∀ byte ∈ bytes, byte < 256) :
    urlsafeB64decode (urlsafeB64encode bytes) = some bytes := by
  have hascii : (urlsafeB64encode bytes).all (fun char => char.toNat < 128) = true := by
    simpa using ascii_urlsafeB64encode hbytes
  rw [urlsafeB64decode, if_pos hascii, decodeBase64_urlsafeB64encode hbytes]

/-! ## Tokens -/

/-- The parts of a Fernet token after its version byte. -/
structure FernetToken where
  time : ℕ
  iv : List UInt8
  ciphertext : List UInt8
  hmac : List UInt8
  time_lt : time < 2 ^ 32
  length_iv : iv.length = 16
  length_ciphertext : 16 ≤ ciphertext.length
  length_hmac : hmac.length = 32

/-- `time.to_bytes(8, "big")` -/
def timeBytes (time : ℕ) : List ℕ :=
  (List.range 8).map fun index => time / 256 ^ (7 - index) % 256

/-- The bytes of a token, from the version byte on. -/
def FernetToken.bytes (token : FernetToken) : List ℕ :=
  0x80 :: timeBytes token.time ++
    (token.iv ++ token.ciphertext ++ token.hmac).map UInt8.toNat

/-- The text of a token. -/
def FernetToken.text (token : FernetToken) : String :=
  String.ofList (urlsafeB64encode token.bytes)

/-- What Fernet documents about the tokens that it writes. -/
def Fernet.WireFormat {Key Entropy : Type*} (fernet : Fernet Key Entropy) : Prop :=
  ∀ key entropy message, ∃ token : FernetToken,
    fernet.encrypt key entropy message = token.text

namespace FernetToken

variable (token : FernetToken)

/-- The four high bytes of the time stamp are zero. -/
theorem timeBytes_eq {time : ℕ} (htime : time < 2 ^ 32) :
    ∃ low, low.length = 4 ∧ (∀ byte ∈ low, byte < 256) ∧
      timeBytes time = [0, 0, 0, 0] ++ low := by
  refine ⟨[time / 256 ^ 3 % 256, time / 256 ^ 2 % 256, time / 256 ^ 1 % 256,
    time / 256 ^ 0 % 256], rfl, ?_, ?_⟩
  · simp [Nat.mod_lt]
  · have hhigh : ∀ power ≥ 4, time / 256 ^ power % 256 = 0 := by
      intro power hpower
      have hle : 256 ^ 4 ≤ 256 ^ power := Nat.pow_le_pow_right (by decide) hpower
      rw [Nat.div_eq_of_lt (by omega)]
    simp only [timeBytes, List.range, List.range.loop, List.map_cons, List.map_nil,
      List.cons_append, List.nil_append]
    rw [hhigh _ (by decide), hhigh _ (by decide), hhigh _ (by decide), hhigh _ (by decide)]

theorem bytes_eq : ∃ low rest, token.bytes = [0x80, 0, 0, 0, 0] ++ low ++ rest ∧
    low.length = 4 ∧ 64 ≤ rest.length ∧ ∀ byte ∈ low ++ rest, byte < 256 := by
  obtain ⟨low, hlength, hlow, htime⟩ := timeBytes_eq token.time_lt
  refine ⟨low, _, by rw [bytes, htime]; rfl, hlength, ?_, ?_⟩
  · have hciphertext := token.length_ciphertext
    simp only [List.length_map, List.length_append, token.length_iv, token.length_hmac]
    omega
  · intro byte hbyte
    rcases List.mem_append.mp hbyte with hbyte | hbyte
    · exact hlow byte hbyte
    · obtain ⟨part, -, rfl⟩ := List.mem_map.mp hbyte
      exact part.toNat_lt

theorem bytes_lt : ∀ byte ∈ token.bytes, byte < 256 := by
  obtain ⟨low, rest, hbytes, -, -, hlt⟩ := token.bytes_eq
  intro byte hbyte
  rw [hbytes, List.append_assoc, List.mem_append] at hbyte
  rcases hbyte with hhead | htail
  · revert byte
    decide
  · exact hlt byte htail

/-- The text of a token begins as the code expects. -/
theorem startsWith_text : startsWith token.text fernetBlobPrefix = true := by
  obtain ⟨low, rest, hbytes, hlow, hrest, hlt⟩ := token.bytes_eq
  rw [startsWith, text, String.toList_ofList, hbytes]
  obtain ⟨first, tail, rfl⟩ := List.exists_cons_of_length_eq_add_one (n := 3) hlow
  simp [urlsafeB64encode, fernetBlobPrefix, base64Char]

theorem length_bytes : 57 ≤ token.bytes.length := by
  obtain ⟨low, rest, hbytes, -, hrest, -⟩ := token.bytes_eq
  rw [hbytes]
  simp only [List.length_append, List.length_cons, List.length_nil]
  omega

/-- The code recognises every token that Fernet writes. -/
theorem isValidFernetTokenFormat_text : isValidFernetTokenFormat token.text = true := by
  have hmod := length_urlsafeB64encode_mod token.bytes
  have hdecode := urlsafeB64decode_urlsafeB64encode token.bytes_lt
  have hhead : token.bytes.head? = some 0x80 := rfl
  rw [isValidFernetTokenFormat, token.startsWith_text]
  simp [text, hmod, hdecode, token.length_bytes, hhead]

end FernetToken

/-! ## Receiver tokens -/

/-- The text has the version byte and the length of a Fernet token behind the
characters that such a token begins with. -/
def FernetShaped (text : String) : Prop :=
  startsWith text fernetBlobPrefix = true ∧
    ∃ raw, urlsafeB64decode (text.toList ++
        List.replicate ((4 - text.toList.length % 4) % 4) '=') = some (0x80 :: raw) ∧
      56 ≤ raw.length

/-- `row.removeprefix("fernet1:")` -/
def blobOf (row : String) : String :=
  if startsWith row fernetPrefix then dropChars row fernetPrefix.toList.length else row

theorem isValidFernetTokenFormat_iff {text : String} :
    isValidFernetTokenFormat text = true ↔ FernetShaped text := by
  rw [isValidFernetTokenFormat, FernetShaped]
  cases startsWith text fernetBlobPrefix with
  | false => simp
  | true =>
      simp only [Bool.not_true, Bool.false_eq_true, if_false, true_and]
      cases urlsafeB64decode (text.toList ++
          List.replicate ((4 - text.toList.length % 4) % 4) '=') with
      | none => simp
      | some raw =>
          cases raw with
          | nil => simp
          | cons first rest => simp [and_comm]

section Rows

variable {Key Entropy : Type*} {fernet : Fernet Key Entropy}
  (hformat : fernet.WireFormat)

include hformat

theorem isValidFernetTokenFormat_encrypt (key : Key) (entropy : Entropy)
    (message : ByteArray) :
    isValidFernetTokenFormat (fernet.encrypt key entropy message) = true := by
  obtain ⟨token, htoken⟩ := hformat key entropy message
  rw [htoken, token.isValidFernetTokenFormat_text]

/-- What is not shaped as a token was not written by Fernet. -/
theorem decrypt_eq_none_of_not_shaped {blob : String} (hblob : ¬FernetShaped blob)
    (key : Key) : fernet.decrypt key blob = none := by
  cases hdecrypt : fernet.decrypt key blob with
  | none => rfl
  | some message =>
      obtain ⟨entropy, rfl⟩ := (fernet.decrypt_eq_some_iff key blob message).mp hdecrypt
      have hvalid := isValidFernetTokenFormat_encrypt hformat key entropy message
      exact absurd (isValidFernetTokenFormat_iff.mp hvalid) hblob

/-- A row that is not shaped as a token is handed back as it is stored. -/
theorem decryptToken_of_not_shaped {row : String} (hrow : ¬FernetShaped (blobOf row))
    (key : Key) : decryptToken fernet key row = .ok row := by
  have hvalid : isValidFernetTokenFormat (blobOf row) = false := by
    rw [← Bool.not_eq_true, isValidFernetTokenFormat_iff]
    exact hrow
  have hnone := decrypt_eq_none_of_not_shaped hformat hrow key
  rw [decryptToken]
  split_ifs with hempty hprefix hshape
  · rw [hempty]
  · rw [blobOf, if_pos hprefix] at hvalid hnone
    simp [decryptFernetBlob, hnone, hvalid]
  · rw [blobOf, if_neg hprefix] at hvalid
    exact absurd hshape (by simp [hvalid])
  · rfl

end Rows

/-- Stored tokens are read back under their key and refused under any other; a row
from before the encryption that is not shaped as a Fernet token is left alone. -/
theorem receiver_tokens_at_rest {Key Entropy : Type*} (fernet : Fernet Key Entropy)
    (hformat : fernet.WireFormat) {key key' : Key} (hkey : key' ≠ key)
    (entropy : Entropy) (token : String) :
    decryptToken fernet key (encryptToken fernet key entropy token) = .ok token ∧
      (token ≠ "" → decryptToken fernet key' (encryptToken fernet key entropy token) =
        .error .tokenDecryption) ∧
      ∀ row, ¬FernetShaped (blobOf row) → ∀ reader,
        decryptToken fernet reader row = .ok row := by
  refine ⟨decryptToken_encryptToken fernet key entropy token, fun htoken => ?_,
    fun row hrow reader => decryptToken_of_not_shaped hformat hrow reader⟩
  rw [decryptToken_encryptToken_of_ne fernet hkey entropy htoken,
    if_pos (isValidFernetTokenFormat_encrypt hformat key entropy token.toByteArray)]

/-! ## An instance -/

/-- The token that spells the message behind a block of zeros and the key in the
last byte. -/
def plainToken (key : Bool) (message : ByteArray) : FernetToken where
  time := 0
  iv := List.replicate 16 0
  ciphertext := List.replicate 16 0 ++ message.data.toList
  hmac := List.replicate 31 0 ++ [if key then 1 else 0]
  time_lt := by decide
  length_iv := rfl
  length_ciphertext := by simp
  length_hmac := by simp

/-- The message that the bytes of a plain token spell. -/
def plainMessage (raw : List ℕ) : ByteArray :=
  ⟨(((raw.drop 41).take (raw.length - 73)).map UInt8.ofNat).toArray⟩

theorem bytes_plainToken (key : Bool) (message : ByteArray) :
    (plainToken key message).bytes =
      (0x80 :: List.replicate 40 0) ++ message.data.toList.map UInt8.toNat ++
        List.replicate 31 0 ++ [if key then 1 else 0] := by
  cases key <;> simp [FernetToken.bytes, plainToken, timeBytes]

theorem getLast?_bytes_plainToken (key : Bool) (message : ByteArray) :
    (plainToken key message).bytes.getLast? = some (if key then 1 else 0) := by
  rw [bytes_plainToken, List.getLast?_concat]

theorem plainMessage_bytes (key : Bool) (message : ByteArray) :
    plainMessage (plainToken key message).bytes = message := by
  have hlength : (plainToken key message).bytes.length - 73 =
      (message.data.toList.map UInt8.toNat).length := by
    simp [bytes_plainToken]
  have hspelled : (message.data.toList.map UInt8.toNat).map UInt8.ofNat =
      message.data.toList := by
    simp [Function.comp_def, UInt8.ofNat_toNat]
  rw [plainMessage, hlength, bytes_plainToken, List.append_assoc, List.append_assoc,
    List.drop_left' (by simp), List.take_left, hspelled]

/-- Tokens in the wire format that hide nothing. -/
def wireFernet : Fernet Bool Unit where
  encrypt key _ message := (plainToken key message).text
  decrypt key blob :=
    match urlsafeB64decode blob.toList with
    | none => none
    | some raw =>
      if (plainToken key (plainMessage raw)).text = blob then some (plainMessage raw)
      else none
  decrypt_eq_some_iff key blob message := by
    constructor
    · intro hdecrypt
      split at hdecrypt
      · cases hdecrypt
      · split_ifs at hdecrypt with htext
        obtain rfl := Option.some.inj hdecrypt
        exact ⟨(), htext⟩
    · rintro ⟨-, rfl⟩
      have hdecode : urlsafeB64decode (plainToken key message).text.toList =
          some (plainToken key message).bytes := by
        rw [FernetToken.text, String.toList_ofList,
          urlsafeB64decode_urlsafeB64encode (plainToken key message).bytes_lt]
      simp only [hdecode, plainMessage_bytes, if_true]
  key_eq_of_encrypt_eq key key' _ _ message message' heq := by
    have hdecode := congrArg (fun text => urlsafeB64decode text.toList) heq
    simp only [FernetToken.text, String.toList_ofList,
      urlsafeB64decode_urlsafeB64encode (FernetToken.bytes_lt _)] at hdecode
    have hlast := congrArg List.getLast? (Option.some.inj hdecode)
    rw [getLast?_bytes_plainToken, getLast?_bytes_plainToken] at hlast
    cases key <;> cases key' <;> simp at hlast ⊢

theorem wireFormat_wireFernet : wireFernet.WireFormat :=
  fun key _ message => ⟨plainToken key message, rfl⟩

theorem receiver_tokens_at_rest_sample :
    decryptToken wireFernet true (encryptToken wireFernet true () "fernet1:secret") =
        .ok "fernet1:secret" ∧
      ("fernet1:secret" ≠ "" →
        decryptToken wireFernet false (encryptToken wireFernet true () "fernet1:secret") =
          .error .tokenDecryption) ∧
      ∀ row, ¬FernetShaped (blobOf row) → ∀ reader,
        decryptToken wireFernet reader row = .ok row :=
  receiver_tokens_at_rest wireFernet wireFormat_wireFernet (by decide) () "fernet1:secret"

end SsfTransmitter.Store
