/-
The passwordless login (`passwdless`): challenges by link and by one-time password.

A challenge lies in two caches, under its link and under its nonce.  The two caches
are separate, and each confirmation removes the challenge from its own one first.
-/
import Authnz.Model.Handlers

namespace Authnz

open Basis

inductive PasswdlessError where
  | DbError
  | BadToken
  | UserNotFound
  deriving DecidableEq

/-- `translate_error`. -/
def translate_error : PasswdlessError → HttpResponse
  | .DbError => .finish 500
  | .BadToken => .json 400 (.text "Invalid or expired token")
  | .UserNotFound => .json 404 (.text "User not found")

/-- `impl Display for PasswdlessError`. -/
def PasswdlessError.to_string : PasswdlessError → String
  | .DbError => "service unavailable, please try again later"
  | .BadToken => "Invalid or expired token"
  | .UserNotFound => "User not found"

/-- What is published for the messenger to deliver. -/
structure ChallengeRequested where
  token : Nat
  link : String
  nonce : String
  deriving DecidableEq

namespace PasswdlessService

def random_otp : Handler Nat := ask (.random_range 100000 999999)

/-- Draw a challenge and put it into both caches. -/
def release_pair (email : Uuid) : Handler ChallengeRequested := do
  let link ← generate_raw_token
  let nonce ← generate_raw_token
  let token ← random_otp
  let fa2 : FA2Entry := { link, token, email, nonce }
  let _ ← ask (.tokens_insert nonce fa2)
  let _ ← ask (.links_insert link fa2)
  return { token, link, nonce }

def confirm_link (token : String) : Service PasswdlessError Uuid := do
  match ← ExceptT.lift (ask (.links_remove token)) with
  | none => throw .BadToken
  | some fa2 =>
      let _ ← ExceptT.lift (ask (.tokens_remove (FA2Entry.nonce fa2)))
      return FA2Entry.email fa2

def confirm_token (token : Nat) (nonce : String) : Service PasswdlessError Uuid := do
  match ← ExceptT.lift (ask (.tokens_remove nonce)) with
  | none => throw .BadToken
  | some fa2 =>
      if FA2Entry.token fa2 ≠ token then
        throw .BadToken
      let _ ← ExceptT.lift (ask (.links_remove (FA2Entry.link fa2)))
      return FA2Entry.email fa2

def publish_challenge (payload : ChallengeRequested) : Service PasswdlessError Unit := do
  attempt (fun _ => PasswdlessError.DbError) begin_tx
  in_tx do
    let _ ← attempt (fun _ => PasswdlessError.DbError) <| insert_into outbox .tx fun _ =>
      .challenge_requested payload.token payload.link payload.nonce
    attempt (fun _ => PasswdlessError.DbError) commit_tx

def challenge_by_email (email : String) : Service PasswdlessError Unit := do
  match ← ExceptT.lift (UserService.get_user_by_email email).run with
  | .error _ => throw .UserNotFound
  | .ok user =>
      let payload ← ExceptT.lift (release_pair user.id)
      publish_challenge payload

def challenge_by_username (email : String) : Service PasswdlessError Unit := do
  match ← ExceptT.lift (UserService.get_user_by_username email).run with
  | .error _ => throw .UserNotFound
  | .ok user =>
      let payload ← ExceptT.lift (release_pair user.id)
      publish_challenge payload

end PasswdlessService

/-- What both forms of asking for a challenge do with the account they find. -/
def challenge_of (find : Service AuthError User) : Service PasswdlessError Unit := do
  match ← ExceptT.lift find.run with
  | .error _ => throw .UserNotFound
  | .ok user =>
      let payload ← ExceptT.lift (PasswdlessService.release_pair user.id)
      PasswdlessService.publish_challenge payload

namespace handlers

variable (c : Crates)

def challenge1 (email : String) : Handler HttpResponse := do
  match ← (PasswdlessService.challenge_by_email email).run with
  | .ok () => return .finish 201
  | .error e => return translate_error e

def challenge2 (username : String) : Handler HttpResponse := do
  match ← (PasswdlessService.challenge_by_username username).run with
  | .ok () => return .finish 201
  | .error e => return translate_error e

/-- What both confirmations do once the challenge is accepted. -/
def start_confirmed_session (user_id : Uuid) (params : SessionParams) : Handler HttpResponse := do
  match ← (UserService.get_user_by_id user_id).run with
  | .error _ => return .finish 500
  | .ok user =>
      -- a failure to set the flag is only logged
      let _ ← ask (.update user_id { username := none, email_confirmed := some true })
      let user ← SessionUser.new user
      match ← (SessionService.issue_session user params).run with
      | .error _ => return .finish 500
      | .ok sess_id => return ⟨200, some (session_cookie c sess_id), .empty⟩

def confirm (token : String) (params : SessionParams) : Handler HttpResponse := do
  match ← (PasswdlessService.confirm_link token).run with
  | .error e => return translate_error e
  | .ok user_id => start_confirmed_session c user_id params

def confirm_token (token : Nat) (nonce : String) (params : SessionParams) :
    Handler HttpResponse := do
  match ← (PasswdlessService.confirm_token token nonce).run with
  | .error e => return translate_error e
  | .ok user_id => start_confirmed_session c user_id params

end handlers

end Authnz
