/-
Stand-ins for the crates, so that the model can be run.

The hashes of the few texts concrete runs use are the real ones; other texts hash to
themselves.  `bcrypt` keeps what the real function keeps of a password: the 72 bytes
of its key.
-/
import Authnz.Model.Passkey

namespace Authnz

open Basis

/-- A token drawn from 32 equal bytes. -/
def token_of (b : UInt8) : String := base64url (List.replicate 32 b)

def hexDigits : List Char := "0123456789abcdef".toList

/-- The lowest `k` hexadecimal digits of a number. -/
def hex : Nat → Nat → List Char
  | 0, _ => []
  | k + 1, n => hex k (n / 16) ++ [hexDigits.getD (n % 16) '0']

/-- The hyphenated form of a UUID. -/
def uuid_text (n : Uuid) : String :=
  let d := hex 32 n
  String.ofList (d.take 8 ++ '-' :: (d.drop 8).take 4 ++ '-' :: (d.drop 12).take 4 ++
    '-' :: (d.drop 16).take 4 ++ '-' :: d.drop 20)

/-- Its value, whatever the hyphens. -/
def uuid_value (s : String) : Option Uuid :=
  let d := s.toList.filter fun ch => ch != '-'
  if d.length = 32 then
    d.foldlM (fun n ch => (hexDigits.idxOf? ch).map fun k => n * 16 + k) 0
  else none

/-- SHA-256 of the tokens in use. -/
def sha256_of (s : String) : String :=
  if s == token_of 1 then "56d5fa7333f6d747db42c239407e5da4c32f4c79f35d092b134fd35a402d9c5c"
  else if s == token_of 2 then "6c1d63bbdab437c54368cbbd8886a886a79ad977297e265eebf1f5f5f01533b9"
  else if s == token_of 3 then "83bee072fbd3423f7481fc163821636ad8cfb73faef0dd0581f3979ea0c731b9"
  else if s == token_of 4 then "4f6a3bb5a6c72d17856be15f62e747ef88df8139f0c38411c8501164c1c1bdd8"
  else s

def sample_crates : Crates where
  sha256_hex := sha256_of
  bcrypt_hash password salt :=
    String.ofList ("$2b$10$".toList ++ List.replicate salt '.' ++ '$' ::
      (bcrypt_key password).map fun b => Char.ofNat b.toNat)
  bcrypt_verify password hash :=
    match hash.toList with
    | '$' :: '2' :: 'b' :: '$' :: '1' :: '0' :: '$' :: rest =>
        some ((rest.dropWhile fun ch => ch == '.') ==
          '$' :: (bcrypt_key password).map fun b => Char.ofNat b.toNat)
    | _ => none
  zxcvbn_score password := if password.isEmpty then 0 else 4
  validate_email s := s.toList.contains '@'
  uuid_to_string := uuid_text
  uuid_parse := uuid_value
  viewset_status
    | .failed .NotFound => 404
    | .failed (.Validation _) => 400
    | .failed _ => 500
    | .deleted => 204
    | _ => 200

theorem sample_viewsets : sample_crates.ViewsetDocumented where
  failure e := by cases e <;> simp [sample_crates]
  success o ho := by
    cases o with
    | failed e => exact absurd rfl (ho e)
    | _ => decide

/-- User 7, with the hash of this password. -/
def sample_user (password : String) : User :=
  { id := 7, username := "alice", email := "alice@example.com", created_at := 0,
    password_hash := sample_crates.bcrypt_hash password 0, updated_at := 0, email_confirmed := true }

/-- A reset of user 7 for this token, good for half an hour. -/
def sample_reset (token : String) : PasswordReset :=
  { id := 1, user_id := 7, token_hash := sample_crates.sha256_hex token,
    expires_at := minutes 30, used := some false }

/-- A session of user 7. -/
def sample_session : Session :=
  { id := 1, sub := 7, username := "alice", email := "alice@example.com", ip_address := "10.0.0.1",
    expires_at := hours 1 }

def alices_browser : SessionParams := ⟨"10.0.0.1", "browser"⟩

/-- User 7, as the middleware lets her in. -/
def as_alice : Identity := ⟨7, "alice", "alice@example.com"⟩

/-- A refresh token of user 7. -/
def sample_token (token : String) : RefreshToken :=
  { user_id := 7, token_hash := sample_crates.sha256_hex token, issuer := "session",
    expires_at := days 30, revoked := some false, created_at := 0 }

/-- The service's JWT side. -/
def sample_jwt : JwtService := ⟨sample_crates, ["authnz"]⟩

/-! ### An authenticator -/

/-- The stored form of a passkey: two numbers in strokes, then the credential id and the key. -/
def passkey_text (k : Passkey) : String :=
  String.ofList (List.replicate k.counter 'I' ++ '.' :: List.replicate k.cred_id.length 'I' ++
    '.' :: (k.cred_id.map fun b => Char.ofNat b.toNat) ++ k.key.toList)

def passkey_of_text (s : String) : Option Passkey :=
  let counter := (s.toList.takeWhile fun ch => ch == 'I').length
  let rest := s.toList.drop (counter + 1)
  let n := (rest.takeWhile fun ch => ch == 'I').length
  let rest := rest.drop (n + 1)
  some ⟨(rest.take n).map fun ch => UInt8.ofNat ch.toNat, counter, String.ofList (rest.drop n)⟩

/-- A registration answers with the new credential, a login with the id of the one it used. -/
def sample_webauthn : Webauthn Passkey (List UInt8) where
  start_passkey_authentication credentials challenge := ⟨challenge, credentials⟩
  finish_passkey_authentication cred state :=
    match state.credentials.find? fun k => k.cred_id == cred with
    | some k => .ok ⟨cred, k.counter + 1⟩
    | none => .error "The credential is not allowed"
  start_passkey_registration user_id _ exclude challenge := ⟨challenge, user_id, exclude⟩
  finish_passkey_registration passkey state :=
    if state.exclude.contains passkey.cred_id then .error "The credential is excluded"
    else .ok passkey
  update_credential k result :=
    if k.cred_id == result.cred_id then some (true, { k with counter := result.counter }) else none
  to_string k := some (passkey_text k)
  from_str := passkey_of_text

theorem takeWhile_strokes (n : Nat) (l : List Char) :
    ((List.replicate n 'I' ++ '.' :: l).takeWhile fun ch => ch == 'I').length = n := by
  induction n with
  | zero => rfl
  | succ n ih =>
      rw [List.replicate_succ, List.cons_append, List.takeWhile_cons_of_pos (by rfl),
        List.length_cons, ih]

theorem drop_strokes (n : Nat) (l : List Char) :
    (List.replicate n 'I' ++ '.' :: l).drop (n + 1) = l := by
  rw [List.drop_append, List.length_replicate, List.drop_replicate]
  simp

theorem byte_of_char (b : UInt8) : UInt8.ofNat (Char.ofNat b.toNat).toNat = b := by
  have hvalid : b.toNat.isValidChar := .inl (by have hlt := b.toNat_lt; omega)
  rw [Char.ofNat, dif_pos hvalid]
  exact UInt8.ofNat_toNat

/-- A stored passkey is read back as it was. -/
theorem passkey_of_passkey_text (k : Passkey) : passkey_of_text (passkey_text k) = some k := by
  unfold passkey_of_text passkey_text
  rw [String.toList_ofList]
  simp only [List.append_assoc, List.cons_append]
  rw [takeWhile_strokes, drop_strokes, takeWhile_strokes, drop_strokes]
  have hlen : k.cred_id.length = (k.cred_id.map fun b => Char.ofNat b.toNat).length :=
    (List.length_map _).symm
  rw [hlen, List.take_left, List.drop_left, List.map_map, String.ofList_toList]
  have hbytes : (fun ch : Char => UInt8.ofNat ch.toNat) ∘ (fun b : UInt8 => Char.ofNat b.toNat) =
      id := funext byte_of_char
  rw [hbytes, List.map_id]

def sample_passkey : Passkey := ⟨[1, 2, 3], 0, "key"⟩

/-- User 7's passkey. -/
def sample_enrolment : PasskeyCredential :=
  { id := 3, user_id := 7, credential_id := credential_id_b64 sample_passkey,
    passkey_data := passkey_text sample_passkey, label := none, created_at := 0,
    last_used_at := none }

end Authnz
