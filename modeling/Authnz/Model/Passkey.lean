/-
The passkey endpoints (`passkey`): registration and login ceremonies.

The WebAuthn library and the stored form of a credential come from outside the
repository and are the parameter `Webauthn`.
-/
import Authnz.Model.Handlers

namespace Authnz

open Basis

/-- What `finish_passkey_authentication` hands back. -/
structure AuthenticationResult where
  cred_id : List UInt8
  counter : Nat
  deriving DecidableEq

/-- `webauthn_rs` and `serde_json`, as far as the endpoints use them.  `Reg` and `Cred` are the
authenticator's answers to a registration and to a login. -/
structure Webauthn (Reg Cred : Type) where
  start_passkey_authentication : List Passkey → String → PasskeyAuthentication
  finish_passkey_authentication : Cred → PasskeyAuthentication → Except String AuthenticationResult
  start_passkey_registration : Uuid → String → List (List UInt8) → String → PasskeyRegistration
  finish_passkey_registration : Reg → PasskeyRegistration → Except String Passkey
  /-- `Passkey::update_credential`: the new credential, if it belongs to the result. -/
  update_credential : Passkey → AuthenticationResult → Option (Bool × Passkey)
  /-- `serde_json::to_string`. -/
  to_string : Passkey → Option String
  /-- `serde_json::from_str`. -/
  from_str : String → Option Passkey

inductive RepoError where
  | Db
  | Corrupt
  deriving DecidableEq

def credential_id_b64 (passkey : Passkey) : String := base64url passkey.cred_id

namespace ErrorResponse

def bad_request (msg : String) : HttpResponse := .json 400 (.error msg)

def not_found (msg : String) : HttpResponse := .json 404 (.error msg)

def internal : HttpResponse := .json 500 (.error "Internal server error")

end ErrorResponse

namespace CredsRepo

variable {Reg Cred : Type} (wa : Webauthn Reg Cred)

def insert_credential (user_id : Uuid) (passkey : Passkey) (label : Option String) :
    Service RepoError Unit := do
  let credential_id := credential_id_b64 passkey
  match wa.to_string passkey with
  | none => throw .Corrupt
  | some data =>
      let now ← utc_now
      let _ ← attempt (fun _ => RepoError.Db) <| insert_into passkey_credentials .pool fun id =>
        { id, user_id, credential_id, passkey_data := data, label, created_at := now,
          last_used_at := none }

def credentials_for_user (user_id : Uuid) : Service RepoError (List Passkey) := do
  let rows ← attempt (fun _ => RepoError.Db) <|
    select_from passkey_credentials fun k => k.user_id == user_id
  match rows.mapM fun k => wa.from_str k.passkey_data with
  | some passkeys => return passkeys
  | none => throw .Corrupt

def update_credential (passkey : Passkey) : Service RepoError Unit := do
  let credential_id := credential_id_b64 passkey
  match wa.to_string passkey with
  | none => throw .Corrupt
  | some data =>
      let now ← utc_now
      let _ ← attempt (fun _ => RepoError.Db) <| update_set passkey_credentials .pool
        (fun k => k.credential_id == credential_id)
        (fun k => { k with passkey_data := data, last_used_at := some now })

/-- The metadata of the user's passkeys, the newest first. -/
def list_for_user (user_id : Uuid) : Service RepoError (List CredentialSummary) := do
  let rows ← attempt (fun _ => RepoError.Db) <|
    select_from passkey_credentials fun k => k.user_id == user_id
  return (rows.mergeSort fun a b => b.created_at ≤ a.created_at).map fun k =>
    { id := k.id, label := k.label, created_at := k.created_at, last_used_at := k.last_used_at }

def delete_credential (user_id : Uuid) (credential_row_id : Uuid) : Service RepoError Bool := do
  let rows ← attempt (fun _ => RepoError.Db) <| delete_from passkey_credentials .pool
    fun k => k.id == credential_row_id && k.user_id == user_id
  return decide (0 < rows.length)

end CredsRepo

/-! ### Ceremony state -/

/-- Seconds. -/
def CHALLENGE_TTL : Nat := 300

def now_secs : Handler Nat := do
  let t ← utc_now
  return (t / seconds 1).toNat

namespace PasskeyState

variable (c : Crates)

def store_reg_state (user_id : Uuid) (state : PasskeyRegistration) : Handler Unit := do
  let issued_at_secs ← now_secs
  let _ ← ask (.reg_set (c.uuid_to_string user_id) { issued_at_secs, state })

def take_reg_state (user_id : Uuid) : Handler (Option PasskeyRegistration) := do
  let key := c.uuid_to_string user_id
  let got ← ask (.reg_get key)
  match (got : Except Failed (Option TimedRegState)) with
  | .ok (some timed) =>
      let _ ← ask (.reg_delete key)
      let age := (← now_secs) - timed.issued_at_secs
      return if age > CHALLENGE_TTL then none else some timed.state
  | .ok none => return none
  | .error _ => return none

def store_auth_state (username : String) (state : PasskeyAuthentication) : Handler Unit := do
  let issued_at_secs ← now_secs
  let _ ← ask (.auth_set username { issued_at_secs, state })

def take_auth_state (username : String) : Handler (Option PasskeyAuthentication) := do
  let got ← ask (.auth_get username)
  match (got : Except Failed (Option TimedAuthState)) with
  | .ok (some timed) =>
      let _ ← ask (.auth_delete username)
      let age := (← now_secs) - timed.issued_at_secs
      return if age > CHALLENGE_TTL then none else some timed.state
  | .ok none => return none
  | .error _ => return none

end PasskeyState

/-- A challenge drawn by the WebAuthn library, or its error. -/
def draw_challenge : Handler (Except String String) := ask .challenge

/-! ### Registering a passkey (`auth/register.rs`) -/

namespace passkey_register

variable {Reg Cred : Type} (c : Crates) (wa : Webauthn Reg Cred)

def start (session : Identity) : Handler HttpResponse := do
  let user_id := session.sub
  match ← (UserService.get_user_by_id user_id).run with
  | .error _ => return ErrorResponse.internal
  | .ok user =>
      match ← (CredsRepo.credentials_for_user wa user_id).run with
      | .error _ => return ErrorResponse.internal
      | .ok existing =>
          match ← draw_challenge with
          | .error e => return ErrorResponse.bad_request ("WebAuthn error: " ++ e)
          | .ok challenge =>
              let reg_state := wa.start_passkey_registration user_id user.username
                (existing.map (·.cred_id)) challenge
              PasskeyState.store_reg_state c user_id reg_state
              return .json 200 (.options reg_state.challenge)

def finish (session : Identity) (label : Option String) (credential : Reg) :
    Handler HttpResponse := do
  let user_id := session.sub
  match ← PasskeyState.take_reg_state c user_id with
  | none =>
      return ErrorResponse.bad_request
        "No registration in progress for this account, or it expired. Please start again."
  | some reg_state =>
      match wa.finish_passkey_registration credential reg_state with
      | .error e => return ErrorResponse.bad_request ("WebAuthn error: " ++ e)
      | .ok passkey =>
          match ← (CredsRepo.insert_credential wa user_id passkey label).run with
          | .error _ => return ErrorResponse.internal
          | .ok () => return .json 200 (.status "success" (some "Passkey registered"))

def list (session : Identity) : Handler HttpResponse := do
  match ← (CredsRepo.list_for_user session.sub).run with
  | .ok list => return .json 200 (.passkeys list)
  | .error _ => return ErrorResponse.internal

def remove (session : Identity) (row_id : Uuid) : Handler HttpResponse := do
  match ← (CredsRepo.delete_credential session.sub row_id).run with
  | .ok true => return .json 200 (.status "success" none)
  | .ok false => return ErrorResponse.not_found "Passkey not found"
  | .error _ => return ErrorResponse.internal

end passkey_register

/-! ### Logging in with a passkey (`auth/login.rs`) -/

namespace passkey_login

variable {Reg Cred : Type} (c : Crates) (wa : Webauthn Reg Cred)

def start (req_username : String) : Handler HttpResponse := do
  let username := trim req_username
  if username.isEmpty then
    return ErrorResponse.bad_request "Username is required"
  match ← (UserService.get_user_by_username username).run with
  | .error _ => return ErrorResponse.bad_request "No passkeys registered for this account"
  | .ok user =>
      match ← (CredsRepo.credentials_for_user wa user.id).run with
      | .error _ => return ErrorResponse.internal
      | .ok credentials =>
          if credentials.isEmpty then
            return ErrorResponse.bad_request "No passkeys registered for this account"
          match ← draw_challenge with
          | .error e => return ErrorResponse.bad_request ("WebAuthn error: " ++ e)
          | .ok challenge =>
              let auth_state := wa.start_passkey_authentication credentials challenge
              PasskeyState.store_auth_state username auth_state
              return .json 200 (.options auth_state.challenge)

/-- Persist the refreshed signature counter; a failure is only logged. -/
def refresh_counter (user_id : Uuid) (result : AuthenticationResult) : Handler Unit := do
  match ← (CredsRepo.credentials_for_user wa user_id).run with
  | .error _ => return ()
  | .ok credentials =>
      match credentials.find? fun k => k.cred_id == result.cred_id with
      | none => return ()
      | some cred =>
          match wa.update_credential cred result with
          | some (true, cred) =>
              let _ ← (CredsRepo.update_credential wa cred).run
              return ()
          | _ => return ()

def finish (query_username : String) (credential : Cred) (params : SessionParams) :
    Handler HttpResponse := do
  let username := trim query_username
  match ← (UserService.get_user_by_username username).run with
  | .error _ =>
      return ErrorResponse.bad_request "No authentication in progress for this account"
  | .ok user =>
      match ← PasskeyState.take_auth_state username with
      | none =>
          return ErrorResponse.bad_request
            "No authentication in progress for this account, or it expired. Please try again."
      | some auth_state =>
          match wa.finish_passkey_authentication credential auth_state with
          | .error e => return ErrorResponse.bad_request ("WebAuthn error: " ++ e)
          | .ok result =>
              refresh_counter wa user.id result
              handlers.start_session c user params

end passkey_login

end Authnz
