import SsfTransmitter.Python.JsonText

/-!
# Encryption at rest

Receiver tokens and queued payloads are stored as Fernet tokens.  Fernet is a
library: it enters as a parameter with what its documentation promises, namely
that decryption under a key succeeds exactly on the tokens produced under that
key and returns the encrypted bytes.
-/

namespace SsfTransmitter.Store

/-- `cryptography.fernet.Fernet`.  `Entropy` is the time stamp and the random
initialisation vector of one encryption. -/
structure Fernet (Key Entropy : Type*) where
  encrypt : Key → Entropy → ByteArray → String
  decrypt : Key → String → Option ByteArray
  decrypt_eq_some_iff : ∀ key blob message,
    decrypt key blob = some message ↔ ∃ entropy, encrypt key entropy message = blob
  key_eq_of_encrypt_eq : ∀ key key' entropy entropy' message message',
    encrypt key entropy message = encrypt key' entropy' message' → key = key'

variable {Key Entropy : Type*} (fernet : Fernet Key Entropy)

namespace Fernet

@[simp]
theorem decrypt_encrypt (key : Key) (entropy : Entropy) (message : ByteArray) :
    fernet.decrypt key (fernet.encrypt key entropy message) = some message :=
  (fernet.decrypt_eq_some_iff key _ message).mpr ⟨entropy, rfl⟩

theorem decrypt_encrypt_of_ne {key key' : Key} (hkey : key ≠ key')
    (entropy : Entropy) (message : ByteArray) :
    fernet.decrypt key (fernet.encrypt key' entropy message) = none := by
  rcases hdecrypt : fernet.decrypt key (fernet.encrypt key' entropy message) with
    _ | found
  · rfl
  · obtain ⟨entropy', heq⟩ := (fernet.decrypt_eq_some_iff key _ found).mp hdecrypt
    exact absurd (fernet.key_eq_of_encrypt_eq _ _ _ _ _ _ heq) hkey

end Fernet

/-- The exceptions of `app.crypto` that its callers tell apart. -/
inductive CryptoError where
  | tokenDecryption
  | encryptedData
  | unicodeDecode
  deriving DecidableEq

/-- `_FERNET_PREFIX` -/
def fernetPrefix : String := "fernet1:"

/-- `_FERNET_BLOB_PREFIX` -/
def fernetBlobPrefix : String := "gAAAA"

/-- `value.startswith(head)` -/
def startsWith (value head : String) : Bool :=
  head.toList.isPrefixOf value.toList

/-- `value[count:]` -/
def dropChars (value : String) (count : ℕ) : String :=
  String.ofList (value.toList.drop count)

@[simp]
theorem startsWith_append (head value : String) :
    startsWith (head ++ value) head = true := by
  simp [startsWith, String.toList_append]

@[simp]
theorem dropChars_append (head value : String) :
    dropChars (head ++ value) head.toList.length = value := by
  simp [dropChars, String.toList_append]

/-- The value of a character of either base64 alphabet. -/
def base64Value (char : Char) : Option ℕ :=
  if 'A' ≤ char ∧ char ≤ 'Z' then some (char.toNat - 'A'.toNat)
  else if 'a' ≤ char ∧ char ≤ 'z' then some (char.toNat - 'a'.toNat + 26)
  else if '0' ≤ char ∧ char ≤ '9' then some (char.toNat - '0'.toNat + 52)
  else if char = '-' ∨ char = '+' then some 62
  else if char = '_' ∨ char = '/' then some 63
  else none

/-- `binascii.a2b_base64` without strict mode: `place` is the position in the
current group of four, `held` the bits not yet written, `pads` the padding seen
since the last data character.  Other characters are skipped. -/
def decodeBase64 (place held pads : ℕ) : List Char → Option (List ℕ)
  | [] => if place = 0 then some [] else none
  | char :: rest =>
    if char = '=' then
      if 2 ≤ place ∧ 4 ≤ place + (pads + 1) then some []
      else decodeBase64 place held (if 2 ≤ place then pads + 1 else pads) rest
    else
      match base64Value char with
      | none => decodeBase64 place held pads rest
      | some value =>
        match place with
        | 0 => decodeBase64 1 value 0 rest
        | 1 => (decodeBase64 2 (value % 16) 0 rest).map
            ((held * 4 + value / 16) :: ·)
        | 2 => (decodeBase64 3 (value % 4) 0 rest).map
            ((held * 16 + value / 4) :: ·)
        | _ => (decodeBase64 0 0 0 rest).map ((held * 64 + value) :: ·)

/-- `base64.urlsafe_b64decode`; text outside ASCII is refused. -/
def urlsafeB64decode (text : List Char) : Option (List ℕ) :=
  if text.all fun char => char.toNat < 128 then decodeBase64 0 0 0 text else none

/-- `_is_valid_fernet_token_format` -/
def isValidFernetTokenFormat (value : String) : Bool :=
  if !startsWith value fernetBlobPrefix then false
  else
    let length := value.toList.length
    let padded := value.toList ++ List.replicate ((4 - length % 4) % 4) '='
    match urlsafeB64decode padded with
    | none => false
    | some raw => 57 ≤ raw.length && raw.head? == some 0x80

/-- `bytes.decode("utf-8")` -/
def decodeUtf8 (message : ByteArray) : Except CryptoError String :=
  match String.fromUTF8? message with
  | some text => .ok text
  | none => .error .unicodeDecode

@[simp]
theorem decodeUtf8_toByteArray (text : String) :
    decodeUtf8 text.toByteArray = .ok text := by
  simp only [decodeUtf8, String.fromUTF8?, text.isValidUTF8, dif_pos]
  rfl

/-- `encrypt_token` -/
def encryptToken (key : Key) (entropy : Entropy) (plaintext : String) : String :=
  if plaintext = "" then ""
  else fernetPrefix ++ fernet.encrypt key entropy plaintext.toByteArray

/-- `encrypt_sensitive_data` -/
def encryptSensitiveData (key : Key) (entropy : Entropy) (plaintext : String) :
    String :=
  fernetPrefix ++ fernet.encrypt key entropy plaintext.toByteArray

/-- `decrypt_sensitive_data` -/
def decryptSensitiveData (key : Key) (ciphertext : String) :
    Except CryptoError String :=
  if !startsWith ciphertext fernetPrefix then .error .encryptedData
  else
    match fernet.decrypt key (dropChars ciphertext fernetPrefix.toList.length) with
    | none => .error .encryptedData
    | some message =>
      match decodeUtf8 message with
      | .ok text => .ok text
      | .error _ => .error .encryptedData

/-- `_decrypt_fernet_blob` -/
def decryptFernetBlob (key : Key) (blob : String) : Except CryptoError String :=
  match fernet.decrypt key blob with
  | some message => decodeUtf8 message
  | none => .error .tokenDecryption

/-- `decrypt_token`: a prefixed row fails closed, an unprefixed one may be a
plaintext token from before encryption at rest. -/
def decryptToken (key : Key) (ciphertext : String) : Except CryptoError String :=
  if ciphertext = "" then .ok ""
  else if startsWith ciphertext fernetPrefix then
    let blob := dropChars ciphertext fernetPrefix.toList.length
    match decryptFernetBlob fernet key blob with
    | .error .tokenDecryption =>
      if isValidFernetTokenFormat blob then .error .tokenDecryption
      else .ok ciphertext
    | result => result
  else if isValidFernetTokenFormat ciphertext then
    match fernet.decrypt key ciphertext with
    | some message => decodeUtf8 message
    | none => .ok ciphertext
  else .ok ciphertext

theorem decryptSensitiveData_encryptSensitiveData (key : Key) (entropy : Entropy)
    (plaintext : String) :
    decryptSensitiveData fernet key
        (encryptSensitiveData fernet key entropy plaintext) = .ok plaintext := by
  simp [decryptSensitiveData, encryptSensitiveData]

/-- Under another key stored data is refused. -/
theorem decryptSensitiveData_of_ne {key key' : Key} (hkey : key ≠ key')
    (entropy : Entropy) (plaintext : String) :
    decryptSensitiveData fernet key
        (encryptSensitiveData fernet key' entropy plaintext) =
      .error .encryptedData := by
  simp [decryptSensitiveData, encryptSensitiveData,
    fernet.decrypt_encrypt_of_ne hkey]

private theorem fernetPrefix_append_ne_empty (blob : String) :
    fernetPrefix ++ blob ≠ "" := by
  intro heq
  have hlength := congrArg (fun text => text.toList.length) heq
  simp [fernetPrefix, String.toList_append] at hlength

theorem decryptToken_encryptToken (key : Key) (entropy : Entropy)
    (plaintext : String) :
    decryptToken fernet key (encryptToken fernet key entropy plaintext) =
      .ok plaintext := by
  unfold encryptToken
  split_ifs with hempty
  · simp [decryptToken, hempty]
  · rw [decryptToken, if_neg (fernetPrefix_append_ne_empty _)]
    simp [decryptFernetBlob]

/-- Under another key an encrypted token is refused, when Fernet gives its tokens
the shape that the code looks for, and handed back as it is stored otherwise. -/
theorem decryptToken_encryptToken_of_ne {key key' : Key} (hkey : key ≠ key')
    (entropy : Entropy) {plaintext : String} (hplaintext : plaintext ≠ "") :
    decryptToken fernet key (encryptToken fernet key' entropy plaintext) =
      if isValidFernetTokenFormat
          (fernet.encrypt key' entropy plaintext.toByteArray) then
        .error .tokenDecryption
      else .ok (encryptToken fernet key' entropy plaintext) := by
  simp only [encryptToken, if_neg hplaintext, decryptToken,
    fernetPrefix_append_ne_empty, if_false, startsWith_append, if_true,
    dropChars_append, decryptFernetBlob, fernet.decrypt_encrypt_of_ne hkey]

/-- Under any key an encrypted token is read or refused as undecryptable. -/
theorem decryptToken_encryptToken_cases (key key' : Key) (entropy : Entropy)
    (plaintext : String) :
    (∃ text, decryptToken fernet key
      (encryptToken fernet key' entropy plaintext) = .ok text) ∨
    decryptToken fernet key (encryptToken fernet key' entropy plaintext) =
      .error .tokenDecryption := by
  by_cases hkey : key = key'
  · subst hkey
    exact Or.inl ⟨plaintext, decryptToken_encryptToken fernet key entropy plaintext⟩
  by_cases hplaintext : plaintext = ""
  · exact Or.inl ⟨"", by simp [encryptToken, hplaintext, decryptToken]⟩
  · rw [decryptToken_encryptToken_of_ne fernet hkey entropy hplaintext]
    split_ifs
    · exact Or.inr rfl
    · exact Or.inl ⟨_, rfl⟩

end SsfTransmitter.Store
