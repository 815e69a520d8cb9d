import IamService.MethodFootprints
import Mathlib.Data.Nat.Digits.Lemmas

/-!
# An executable instance of the library parameters

Concrete functions for the third-party code that the service calls, so that runs of the
service can be evaluated. Identifiers and keys have the text format of the real ones;
hashing and encryption are transparent stand-ins that keep the documented laws.
-/

namespace IamService.ReferenceLibraries

def hexDigits : List Char := "0123456789abcdef".toList

/-- The hexadecimal text of a number in `n` digits. -/
def hexText : ℕ → ℕ → List Char
  | 0, _ => []
  | n + 1, b => hexText n (b / 16) ++ [hexDigits.getD (b % 16) '0']

theorem hexDigit_ne_nul : ∀ d < 16, hexDigits.getD d '0' ≠ Char.ofNat 0 := by decide

/-- A hexadecimal text holds no NUL character. -/
theorem nul_not_mem_hexText (n b : ℕ) : Char.ofNat 0 ∉ hexText n b := by
  induction n generalizing b with
  | zero => simp [hexText]
  | succ n ih =>
    simp only [hexText, List.mem_append, List.mem_singleton, not_or]
    exact ⟨ih (b / 16), (hexDigit_ne_nul (b % 16) (Nat.mod_lt b (by decide))).symm⟩

theorem length_hexText (n b : ℕ) : (hexText n b).length = n := by
  induction n generalizing b with
  | zero => rfl
  | succ n ih => simp [hexText, ih]

/-- The hyphenated text of an identifier. -/
def uuidToString (id : Uuid) : String :=
  let h := hexText 32 id.bits
  String.ofList (h.take 8 ++ '-' :: (h.drop 8).take 4 ++ '-' :: (h.drop 12).take 4 ++
    '-' :: (h.drop 16).take 4 ++ '-' :: h.drop 20)

theorem length_uuidToString (id : Uuid) : (uuidToString id).toList.length = 36 := by
  simp [uuidToString, length_hexText]

/-- The text of an identifier holds no NUL character. -/
theorem sqlText_uuidToString (id : Uuid) : sqlText (uuidToString id) = true := by
  have hdigits := nul_not_mem_hexText 32 id.bits
  have htake : ∀ m n, Char.ofNat 0 ∉ ((hexText 32 id.bits).drop m).take n :=
    fun m n h => hdigits (List.mem_of_mem_drop (List.mem_of_mem_take h))
  have hhead : Char.ofNat 0 ∉ (hexText 32 id.bits).take 8 := htake 0 8
  have htail : Char.ofNat 0 ∉ (hexText 32 id.bits).drop 20 := fun h => hdigits (List.mem_of_mem_drop h)
  have hhyphen : Char.ofNat 0 ≠ '-' := by decide
  simp [sqlText, uuidToString, hhead, htake, htail, hhyphen]

/-- The identifier of a hyphenated text. -/
def uuidFromStr (s : String) : Except String Uuid :=
  let cs := s.toList.filter (· ≠ '-')
  if cs.length = 32 ∧ cs.all hexDigits.contains then
    .ok ⟨cs.foldl (fun n c => 16 * n + hexDigits.idxOf c) 0⟩
  else .error "invalid length"

def toLower (s : String) : String := String.ofList (s.toList.map Char.toLower)

theorem toLower_ne_nul {c : Char} (h : c ≠ Char.ofNat 0) : c.toLower ≠ Char.ofNat 0 := by
  unfold Char.toLower
  split
  · rename_i hc
    intro he
    have hval := congrArg (fun d : Char => d.val.toNat) he
    have hupper : c.val.toNat ≤ 90 := hc.2
    have hshift : ('a'.val - 'A'.val).toNat = 32 := by decide
    have hnul : (Char.ofNat 0).val.toNat = 0 := by decide
    simp only [UInt32.toNat_add] at hval
    omega
  · exact h

/-- Lower-casing adds no NUL character. -/
theorem sqlText_toLower {s : String} (h : sqlText s = true) : sqlText (toLower s) = true := by
  simp only [sqlText, toLower, String.toList_ofList, Bool.not_eq_true', List.contains_eq_mem,
    decide_eq_false_iff_not, List.mem_map, not_exists, not_and] at h ⊢
  intro c hc
  exact toLower_ne_nul (fun he => h (he ▸ hc))

def alphabet : List Char := "123456789ABCDEFGHJKLMNPQRSTUVWXYZabcdefghijkmnopqrstuvwxyz".toList

/-- Base-58 text, most significant digit first, padded to 32 characters. -/
def pubkeyToString (pk : Pubkey) : String :=
  let ds := Nat.digits 58 pk.bits
  String.ofList ((ds ++ List.replicate (32 - ds.length) 0).reverse.map (alphabet.getD · '1'))

/-- The value of a base-58 text of 32 to 44 characters. -/
def pubkeyFromStr (s : String) : Except String Pubkey :=
  let cs := s.toList
  let b := Nat.ofDigits 58 (cs.reverse.map alphabet.idxOf)
  if cs.all alphabet.contains ∧ 32 ≤ cs.length ∧ cs.length ≤ 44 then
    if h : b < 2 ^ 256 then .ok ⟨b, h⟩ else .error "Invalid"
  else .error "WrongSize"

theorem digits_length (pk : Pubkey) : (Nat.digits 58 pk.bits).length ≤ 44 :=
  (Nat.digits_length_le_iff (by decide) _).mpr (pk.bound.trans (by decide))

theorem length_pubkeyToString (pk : Pubkey) :
    32 ≤ (pubkeyToString pk).toList.length ∧ (pubkeyToString pk).toList.length ≤ 44 := by
  have h := digits_length pk
  simp only [pubkeyToString, String.toList_ofList, List.length_map, List.length_reverse,
    List.length_append, List.length_replicate]
  omega

theorem idxOf_alphabet : ∀ d < 58, alphabet.idxOf (alphabet.getD d '1') = d := by decide

theorem alphabet_contains : ∀ d < 58, alphabet.contains (alphabet.getD d '1') = true := by decide

/-- The text of a key is read back as the key. -/
theorem pubkeyFromStr_pubkeyToString (pk : Pubkey) : pubkeyFromStr (pubkeyToString pk) = .ok pk := by
  have hlen := length_pubkeyToString pk
  have hd : ∀ d ∈ Nat.digits 58 pk.bits ++
      List.replicate (32 - (Nat.digits 58 pk.bits).length) 0, d < 58 := by
    intro d hd
    rcases List.mem_append.mp hd with hd | hd
    · exact Nat.digits_lt_base (by decide) hd
    · simp [List.eq_of_mem_replicate hd]
  have hall : (pubkeyToString pk).toList.all alphabet.contains = true := by
    simp only [pubkeyToString, String.toList_ofList, List.all_eq_true, List.mem_map,
      List.mem_reverse]
    rintro _ ⟨d, hmem, rfl⟩
    exact alphabet_contains d (hd d hmem)
  have hval : Nat.ofDigits 58 ((pubkeyToString pk).toList.reverse.map alphabet.idxOf) = pk.bits := by
    have hmap : (pubkeyToString pk).toList.reverse.map alphabet.idxOf =
        Nat.digits 58 pk.bits ++ List.replicate (32 - (Nat.digits 58 pk.bits).length) 0 := by
      simp only [pubkeyToString, String.toList_ofList, List.map_reverse, List.reverse_reverse,
        List.map_map]
      exact (List.map_congr_left (fun d hmem => idxOf_alphabet d (hd d hmem))).trans (List.map_id _)
    rw [hmap, Nat.ofDigits_append_replicate_zero, Nat.ofDigits_digits]
  simp only [pubkeyFromStr, hall, hlen.1, hlen.2, and_self, if_true, hval, pk.bound, dif_pos]

/-- The stand-in for an encrypted key keeps the key, so that decryption undoes it. -/
def encryptPrivateKey (_ _ : String) (keypair : Keypair) (salt : ℕ) : Except String KeyMaterial :=
  .ok ⟨List.replicate keypair.secret 0, List.replicate salt 0, []⟩

def decryptPrivateKey (_ _ : String) (key : KeyMaterial) : Option Keypair :=
  some ⟨key.encryptedPrivateKey.length⟩

theorem decrypt_encrypt (s t : String) (keypair : Keypair) (salt : ℕ) (key : KeyMaterial)
    (h : encryptPrivateKey s t keypair salt = .ok key) : decryptPrivateKey s t key = some keypair := by
  cases h
  simp [decryptPrivateKey]

/-- A hash that shows its salt and its password. -/
def argon2Hash (password : String) (salt : ℕ) : Except String String :=
  .ok ("$argon2id$" ++ String.ofList (hexText 8 salt) ++ "$" ++ password)

def argon2Verify (password hash : String) : Except String Bool :=
  .ok (hash.toList.drop 19 = password.toList)

/-- A program-derived address; the program is left out of the derivation. -/
def findProgramAddress (authority _ : Pubkey) : Pubkey :=
  ⟨(authority.bits + 29) % 58, (Nat.mod_lt _ (by decide)).trans (by decide)⟩

def keypairPubkey (keypair : Keypair) : Pubkey :=
  ⟨keypair.secret % 2 ^ 256, Nat.mod_lt _ (by decide)⟩

def libraries : Libraries where
  uuidToString := uuidToString
  toLowercase := toLower
  pgLower := toLower
  parsePubkey := pubkeyFromStr
  pubkeyFromStr := pubkeyFromStr
  pubkeyToString := pubkeyToString
  findProgramAddress := findProgramAddress
  keypairPubkey := keypairPubkey
  currentKdfVersion := 2
  encryptPrivateKey := encryptPrivateKey
  decryptPrivateKey := decryptPrivateKey
  argon2Hash := argon2Hash
  argon2Verify := argon2Verify
  bcryptVerify := fun _ _ => .error "InvalidHash"
  serdeMessage := "invalid type"

theorem keyLaws : KeyLaws libraries where
  parse_text := by
    intro pk
    simp only [libraries]
    exact pubkeyFromStr_pubkeyToString pk
  text_length := by
    intro pk
    simp only [libraries]
    exact (length_pubkeyToString pk).2
  decrypt_encrypt := decrypt_encrypt

theorem keyCharacters : KeyCharacters libraries := by
  intro s pk h
  simp only [libraries, pubkeyFromStr] at h
  split at h
  · rename_i hs
    have hnul : Char.ofNat 0 ∉ s.toList := by
      intro hmem
      have hcontains := List.all_eq_true.mp hs.1 _ hmem
      revert hcontains
      decide
    simpa [sqlText] using hnul
  · cases h

/-- A service deployed in production over these libraries. -/
def service : AuthService where
  config :=
    { environment := "production"
      jwtExpiration := 86400
      appBaseUrl := "http://localhost:3000"
      registryProgramId := "11111111111111111111111111111112"
      encryptionSecret := "encryption"
      masterSecret := "master" }
  lib := libraries

/-- An environment that makes the given choices and then undisturbed ones. -/
def oracle (choices : List Choice) : ℕ → Choice := fun n => choices.getD n {}

/-- Alice registers and receives the id 1 and the verification token 2. -/
def registerAlice : Request where
  call := .register "alice" "alice@example.com" "Str0ng!Pass" none none
  oracle := oracle [{}, { uuid := ⟨1⟩ }, { uuid := ⟨2⟩ }]

/-- The state after Alice has registered. -/
def registered : service.State := service.serveAll (World.empty _) [registerAlice]

/-- The verification token mailed to Alice. -/
def aliceToken : String := uuidToString ⟨2⟩

/-- Alice verifies her email and receives the custodial wallet of keypair 5. -/
def verifyAlice : Request where
  call := .verifyEmail aliceToken
  oracle := oracle [{}, {}, {}, { keypair := ⟨5⟩ }, {}, { uuid := ⟨4⟩ }]

/-- The state after Alice has verified her email. -/
def verified : service.State := service.serveAll (World.empty _) [registerAlice, verifyAlice]

/-- The check for a wallet fails during the verification, and no wallet is provisioned. -/
def activateAlice : Request where
  call := .verifyEmail aliceToken
  oracle := oracle [{}, {}, { fails := true }]

/-- Alice has verified her email and has no wallet. -/
def activated : service.State := service.serveAll (World.empty _) [registerAlice, activateAlice]

/-- The task that the verification has spawned. -/
def aliceTask : RegistrationTask where
  userId := ⟨1⟩
  pubkey := keypairPubkey ⟨5⟩
  walletAddress := pubkeyToString (keypairPubkey ⟨5⟩)
  userType := .consumer
  latitude := 0
  longitude := 0

/-- The transaction of the task is sent, and its answer is lost. -/
def lostAnswer : Request where
  call := .registrationTask aliceTask
  oracle := oracle [{ fails := true, submits := true }]

/-- The transaction lands before Alice lists her wallets. -/
def listAlice : Request where
  call := .listWallets ⟨1⟩
  oracle := oracle [{ lands := [0] }]

/-- The account of Alice is on chain, and the database does not know. -/
def drifted : service.State :=
  service.serveAll (World.empty _) [registerAlice, verifyAlice, lostAnswer, listAlice]

/-- A request for a reset that draws the token 7. -/
def forgot (identifier : String) : Request where
  call := .forgotPassword identifier
  oracle := oracle [{}, { uuid := ⟨7⟩ }]

def resetToken : String := uuidToString ⟨7⟩

/-- A reset with the token 7. -/
abbrev resetAlice : Request := ⟨.resetPassword resetToken "N3w!Secret", oracle []⟩

/-- Alice links a wallet of her own as primary; its row receives the id 3. -/
def linkAlice : Request where
  call := .linkWallet ⟨1⟩ "11111111111111111111111111111115" none true
  oracle := oracle [{}, { uuid := ⟨3⟩ }]

end IamService.ReferenceLibraries
