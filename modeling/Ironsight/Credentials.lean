import Ironsight.Base64

/-! Camera passwords at rest. A stored value that begins with the prefix is taken
for an encrypted one, on the way in as well as on the way out, so that rows from
before encryption keep working and nothing is encrypted twice. -/
namespace Ironsight.Credentials

/-- A string of the source, by its bytes. -/
abbrev Text := List UInt8

/-- The bytes of an ASCII text. -/
def ascii (text : String) : Text := text.toList.map fun c => UInt8.ofNat c.toNat

/-- The text whose characters are the bytes. -/
def latin (text : Text) : String := String.ofList (text.map fun byte => Char.ofNat byte.toNat)

def credentialPrefix : Text := ascii "crypt:v1:"

inductive CredentialError where
  | emptyKey
  | malformed
  | newCipher (keySize : Nat)
  | nonce
  | decrypt
  deriving DecidableEq

/-- The twelve random bytes of one encryption. -/
structure Nonce where
  bytes : List UInt8
  width : bytes.length = 12

/-- AES-GCM without additional data, by key, nonce and text. -/
structure Gcm where
  sealBytes : List UInt8 → List UInt8 → Text → List UInt8
  openBytes : List UInt8 → List UInt8 → List UInt8 → Option Text

def nonceSize : Nat := 12

/-- The key sizes that `aes.NewCipher` takes. -/
def validKeySize (key : List UInt8) : Bool := decide (key.length ∈ [16, 24, 32])

/-- `IsEncrypted`: the stored text begins with the prefix that encryption puts there. -/
def isEncrypted (stored : Text) : Bool := credentialPrefix.isPrefixOf stored

/-- `random` is what the random source gives. -/
def encryptCredential (gcm : Gcm) (random : Option Nonce) (plaintext : Text) (key : List UInt8) :
    Except CredentialError Text :=
  if key = [] then .error .emptyKey
  else if plaintext = [] then .ok []
  else if validKeySize key = false then .error (.newCipher key.length)
  else
    match random with
    | none => .error .nonce
    | some nonce => .ok (credentialPrefix ++ ascii (Base64.encode (nonce.bytes ++ gcm.sealBytes key nonce.bytes plaintext)))

def decryptCredential (gcm : Gcm) (stored : Text) (key : List UInt8) : Except CredentialError Text :=
  if stored = [] then .ok []
  else if key = [] then .error .emptyKey
  else if isEncrypted stored = false then .error .malformed
  else
    match Base64.decode (latin (stored.drop credentialPrefix.length)) with
    | none => .error .malformed
    | some payload =>
      if validKeySize key = false then .error (.newCipher key.length)
      else if payload.length < nonceSize then .error .malformed
      else
        match gcm.openBytes key (payload.take nonceSize) (payload.drop nonceSize) with
        | none => .error .decrypt
        | some plain => .ok plain

/-- The at-rest form of a password; without a key there is none, and a value that
is empty or already encrypted stays as it is. -/
def encryptCred (gcm : Gcm) (credentialsKey : Option (List UInt8)) (random : Option Nonce) (plaintext : Text) :
    Except CredentialError Text :=
  match credentialsKey with
  | none => .ok plaintext
  | some key =>
    if plaintext = [] ∨ isEncrypted plaintext then .ok plaintext
    else encryptCredential gcm random plaintext key

/-- What the read path gives out: nothing when decryption fails. -/
def decryptCred (gcm : Gcm) (credentialsKey : Option (List UInt8)) (stored : Text) : Text :=
  match credentialsKey with
  | none => stored
  | some key =>
    if isEncrypted stored = false then stored
    else
      match decryptCredential gcm stored key with
      | .ok plain => plain
      | .error _ => []

/-! ## Round trip -/

/-- Opening undoes sealing under the same key and nonce. -/
def Gcm.Opens (gcm : Gcm) : Prop :=
  ∀ key nonce text, gcm.openBytes key nonce (gcm.sealBytes key nonce text) = some text

private theorem latin_ascii {text : String} (plain : ∀ c ∈ text.toList, c.toNat < 128) : latin (ascii text) = text := by
  have same : ∀ c ∈ text.toList, Char.ofNat (UInt8.ofNat c.toNat).toNat = c := by
    intro c member
    have small := plain c member
    rw [UInt8.toNat_ofNat_of_lt' (by simp only [UInt8.size]; omega), Char.ofNat_toNat]
  rw [latin, ascii, List.map_map]
  conv_rhs => rw [← String.ofList_toList (s := text)]
  congr 1
  conv_rhs => rw [← List.map_id text.toList]
  exact List.map_congr_left same

/-- The stored form of a sealed password. -/
def storedForm (gcm : Gcm) (key : List UInt8) (nonce : Nonce) (plaintext : Text) : Text :=
  credentialPrefix ++ ascii (Base64.encode (nonce.bytes ++ gcm.sealBytes key nonce.bytes plaintext))

theorem isEncrypted_storedForm : isEncrypted (storedForm gcm key nonce plaintext) = true := by
  simp [isEncrypted, storedForm]

theorem encryptCredential_eq (given : plaintext ≠ []) (size : validKeySize key = true) :
    encryptCredential gcm (some nonce) plaintext key = .ok (storedForm gcm key nonce plaintext) := by
  have present : key ≠ [] := by
    rintro rfl
    cases size
  simp [encryptCredential, storedForm, given, present, size]

/-- A sealed password opens under its key. -/
theorem decryptCredential_storedForm (opens : gcm.Opens) (size : validKeySize key = true) :
    decryptCredential gcm (storedForm gcm key nonce plaintext) key = .ok plaintext := by
  have present : key ≠ [] := by
    rintro rfl
    cases size
  have held : storedForm gcm key nonce plaintext ≠ [] := by
    intro empty
    have marked : isEncrypted (storedForm gcm key nonce plaintext) = true := isEncrypted_storedForm
    rw [empty] at marked
    cases marked
  have payload : Base64.decode (latin ((storedForm gcm key nonce plaintext).drop credentialPrefix.length)) =
      some (nonce.bytes ++ gcm.sealBytes key nonce.bytes plaintext) := by
    rw [storedForm, List.drop_left, latin_ascii (Base64.encode_ascii _), Base64.decode_encode]
  have width : nonceSize = nonce.bytes.length := nonce.width.symm
  simp only [decryptCredential, held, present, isEncrypted_storedForm, payload, size, if_false, Bool.true_eq_false]
  rw [if_neg (by rw [width, List.length_append]; omega), width, List.take_left, List.drop_left, opens]

/-- A password comes back from storage and is not stored as itself, unless it looks
like a stored form: then it is kept unchanged, as a value that is encrypted already. -/
theorem password_survives_storage (gcm : Gcm) (opens : gcm.Opens) (key : List UInt8) (width : key.length = 32)
    (nonce : Nonce) (plaintext : Text) :
    (isEncrypted plaintext = false →
      ∃ stored, encryptCred gcm (some key) (some nonce) plaintext = .ok stored ∧
        decryptCred gcm (some key) stored = plaintext ∧ (plaintext ≠ [] → stored ≠ plaintext)) ∧
    (isEncrypted plaintext = true → encryptCred gcm (some key) (some nonce) plaintext = .ok plaintext) := by
  have size : validKeySize key = true := by simp [validKeySize, width]
  constructor
  · intro unmarked
    by_cases empty : plaintext = []
    · subst empty
      exact ⟨[], by simp [encryptCred], by simp [decryptCred, unmarked], fun given => absurd rfl given⟩
    · refine ⟨storedForm gcm key nonce plaintext, ?_, ?_, ?_⟩
      · simp [encryptCred, empty, unmarked, encryptCredential_eq empty size]
      · simp [decryptCred, isEncrypted_storedForm, decryptCredential_storedForm opens size]
      · rintro - same
        rw [← same, isEncrypted_storedForm] at unmarked
        cases unmarked
  · intro marked
    simp [encryptCred, marked]

private def sampleKey : List UInt8 := (List.range 32).map UInt8.ofNat

private def sampleNonce : Nonce := ⟨(List.range 12).map UInt8.ofNat, by decide⟩

/-- What AES-256-GCM makes of one password under the sample key and nonce. -/
private def sampleSealed : List UInt8 :=
  [47, 119, 184, 111, 160, 151, 240, 217, 13, 29, 15, 193, 177, 202, 246, 38, 175, 111, 43, 145, 14, 129, 153]

private def sampleGcm : Gcm where
  sealBytes key nonce text :=
    if key = sampleKey ∧ nonce = sampleNonce.bytes ∧ text = ascii "hunter2" then sampleSealed else text ++ [0]
  openBytes key nonce bytes :=
    if key = sampleKey ∧ nonce = sampleNonce.bytes ∧ bytes = sampleSealed then some (ascii "hunter2")
    else some bytes.dropLast

private theorem sampleGcm_opens : sampleGcm.Opens := by
  intro key nonce text
  by_cases sample : key = sampleKey ∧ nonce = sampleNonce.bytes ∧ text = ascii "hunter2"
  · simp [sampleGcm, sample]
  · have plain : text ++ [0] ≠ sampleSealed := by
      intro same
      have last := congrArg (List.getLast? ·) same
      simp [sampleSealed] at last
    simp [sampleGcm, sample, plain]

/-- A password that is encrypted, stored and read back. -/
theorem password_survives_storage_hunter2 :
    ∃ stored, encryptCred sampleGcm (some sampleKey) (some sampleNonce) (ascii "hunter2") = .ok stored ∧
      decryptCred sampleGcm (some sampleKey) stored = ascii "hunter2" ∧
      (ascii "hunter2" ≠ [] → stored ≠ ascii "hunter2") :=
  (password_survives_storage sampleGcm sampleGcm_opens sampleKey (by decide) sampleNonce (ascii "hunter2")).1
    (by decide +kernel)

/-- The bare prefix is stored as it is, and read back as no password at all. -/
theorem prefix_is_lost : sampleGcm.Opens ∧ sampleKey.length = 32 ∧ ascii "crypt:v1:" ≠ [] ∧
    encryptCred sampleGcm (some sampleKey) (some sampleNonce) (ascii "crypt:v1:") = .ok (ascii "crypt:v1:") ∧
    decryptCred sampleGcm (some sampleKey) (ascii "crypt:v1:") ≠ ascii "crypt:v1:" := by
  refine ⟨sampleGcm_opens, by decide, ?_, ?_, ?_⟩ <;> decide +kernel

end Ironsight.Credentials
