/-
The password, session and JWT endpoints (`handlers.rs`).
-/
import Authnz.Model.Http

namespace Authnz

open Basis

structure RegisterRequest where
  username : String
  email : String
  password : String
  deriving DecidableEq

structure LoginRequest where
  identifier : String
  password : String
  deriving DecidableEq

structure ChangePasswordRequest where
  current_password : String
  new_password : String
  deriving DecidableEq

structure PasswordResetRequest where
  email : String
  deriving DecidableEq

structure PasswordResetConfirmRequest where
  token : String
  new_password : String
  deriving DecidableEq

/-- The `validator` rules of `RegisterRequest`: lengths count characters. -/
def RegisterRequest.validate (c : Crates) (req : RegisterRequest) : Bool :=
  decide (3 ≤ req.username.length) && decide (req.username.length ≤ 30) &&
    c.validate_email req.email && decide (8 ≤ req.password.length)

/-- Routes under `/me`: the handler is reached with the identity the middleware finds for the
cookie, or not at all. -/
def session_middleware (cookie : String) (handler : Identity → Handler HttpResponse) :
    Handler HttpResponse := do
  let session ← ask (.authenticate cookie)
  match (session : Option Identity) with
  | some id => handler id
  | none => return .finish 401

namespace handlers

variable (c : Crates) (jwt_svc : JwtService)

def register (req : RegisterRequest) : Handler HttpResponse := do
  if !req.validate c then
    return .json 400 (.text "Invalid request")
  match ← (UserService.register c req.username req.email req.password).run with
  | .ok () => return .json 201 (ApiResponse.success .unit "User registered successfully")
  | .error e => return auth_error_to_response e

/-- What `login` and `username_login` do once the credentials are accepted. -/
def start_session (user : User) (params : SessionParams) : Handler HttpResponse := do
  let user ← SessionUser.new (UserResponse.of user)
  match ← (SessionService.issue_session user params).run with
  | .ok sess_id => return ⟨200, some (session_cookie c sess_id), .empty⟩
  | .error e => return auth_error_to_response e

def login (req : LoginRequest) (params : SessionParams) : Handler HttpResponse := do
  match ← (UserService.password_login c ⟨req.identifier, req.password⟩).run with
  | .ok user => start_session c user params
  | .error e => return auth_error_to_response e

def username_login (req : LoginRequest) (params : SessionParams) : Handler HttpResponse := do
  match ← (UserService.username_login c ⟨req.identifier, req.password⟩).run with
  | .ok user => start_session c user params
  | .error e => return auth_error_to_response e

def logout (cookie : Option String) : Handler HttpResponse := do
  match cookie with
  | some sess_id =>
      match ← (SessionService.logout c sess_id).run with
      | .error e => return auth_error_to_response e
      | .ok () =>
          return ⟨200, some removal_cookie, ApiResponse.success .unit "Logged out successfully"⟩
  | none => return ⟨200, some removal_cookie, ApiResponse.success .unit "Logged out successfully"⟩

def change_password (user_session : Identity) (req : ChangePasswordRequest)
    (params : SessionParams) : Handler HttpResponse := do
  let user_id := user_session.sub
  match ← (UserService.change_password c ⟨user_id, req.current_password, req.new_password⟩).run with
  | .ok () =>
      -- a failure to revoke the sessions is only logged
      let _ ← (SessionService.revoke_all_for_user user_id).run
      match ← (UserService.get_user_by_id user_id).run with
      | .error e => return auth_error_to_response e
      | .ok user =>
          let user ← SessionUser.new user
          match ← (SessionService.issue_session user params).run with
          | .error e => return auth_error_to_response e
          | .ok sess_id =>
              let _ ← (JwtService.revoke_all_user_tokens user_id).run
              return ⟨200, some (session_cookie c sess_id),
                ApiResponse.success .unit "Password changed successfully"⟩
  | .error e => return auth_error_to_response e

def request_password_reset (req : PasswordResetRequest) : Handler HttpResponse := do
  let _ ← (UserService.request_password_reset c ⟨req.email⟩).run
  return .json 200 (ApiResponse.success .unit "If the account exists, a reset link has been sent")

def confirm_password_reset (payload : PasswordResetConfirmRequest) : Handler HttpResponse := do
  match ← (UserService.confirm_password_reset c ⟨payload.token, payload.new_password⟩).run with
  | .ok user_id =>
      let _ ← (SessionService.revoke_all_for_user user_id).run
      let _ ← (JwtService.revoke_all_user_tokens user_id).run
      return .finish 200
  | .error e => return auth_error_to_response e

/-- Echoes the session's identity. -/
def protected_ (id : Identity) : Handler HttpResponse :=
  return .json 200 (ApiResponse.success (.account id.sub id.username id.email)
    "Protected data retrieved successfully")

def jwt (user : Identity) : Handler HttpResponse := do
  match ← (jwt_svc.issue_token_pair user.sub "session").run with
  | .ok result => return .json 200 (ApiResponse.success (.jwt result) "JWT issued successfully")
  | .error _ => return .finish 500

def jwt_logout (cmd : LogoutCmd) : Handler HttpResponse := do
  match ← (jwt_svc.logout cmd).run with
  | .error _ => return .finish 500
  | .ok () => return .json 200 (ApiResponse.success .unit "Logged out successfully")

def refresh (cmd : RefreshCmd) : Handler HttpResponse := do
  match ← (jwt_svc.refresh cmd).run with
  | .ok result => return .json 200 (ApiResponse.success (.jwt result) "Refresh successful")
  | .error _ => return .finish 500

def get_sessions (session : Identity) : Handler HttpResponse := do
  match ← SessionRepo.list session.sub with
  | .ok sessions => return .json 200 (.sessions sessions)
  | .error _ => return .finish 500

def delete_session (id : Uuid) (sess : Identity) : Handler HttpResponse := do
  match ← (SessionRepo.retrieve id).run with
  | .error .RowNotFound => return .finish 404
  | .error .database => return .finish 500
  | .ok session =>
      if session.sub ≠ sess.sub then
        return .finish 403
      match ← (SessionRepo.delete id).run with
      | .ok () => return .finish 200
      | .error .RowNotFound => return .finish 200
      | .error .database => return .finish 500

end handlers

end Authnz
