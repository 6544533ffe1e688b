/-
Responses: status, session cookie and body, as the handlers build them.
-/
import Authnz.Model.Jwt
import Authnz.Model.Sessions

namespace Authnz

open Basis

/-- The `data` of the standard envelope. -/
inductive ApiData where
  /-- `()` -/
  | unit
  | jwt (r : JwtResult)
  /-- `ProtectedResponse` -/
  | account (user_id : Uuid) (username email : String)
  deriving DecidableEq

/-- A passkey's metadata. -/
structure CredentialSummary where
  id : Uuid
  label : Option String
  created_at : Time
  last_used_at : Option Time
  deriving DecidableEq

inductive Body where
  | empty
  | text (s : String)
  /-- `ApiResponse`: success, message, data. -/
  | api (success : Bool) (message : String) (data : Option ApiData)
  /-- The passkey endpoints' `{"error": ..}`. -/
  | error (message : String)
  /-- The passkey endpoints' `{"status": .., "message": ..}`. -/
  | status (status : String) (message : Option String)
  /-- The WebAuthn options handed to the browser. -/
  | options (challenge : String)
  /-- A flat array of sessions. -/
  | sessions (l : List Session)
  /-- The passkeys of an account, metadata only. -/
  | passkeys (l : List CredentialSummary)
  /-- What a viewset shows of one row. -/
  | user (u : UserResponse)
  | session (s : Session)
  /-- A viewset's page. -/
  | users (l : List UserResponse)
  | page (l : List Session)
  /-- A viewset's error. -/
  | api_error (e : ApiError)
  deriving DecidableEq

structure Cookie where
  name : String
  value : String
  path : String
  http_only : Bool
  secure : Bool
  same_site : String
  /-- Seconds; `0` removes the cookie. -/
  max_age : Nat
  deriving DecidableEq

structure HttpResponse where
  status : Nat
  cookie : Option Cookie
  body : Body
  deriving DecidableEq

namespace HttpResponse

/-- `HttpResponse::Status().finish()`. -/
def finish (status : Nat) : HttpResponse := ⟨status, none, .empty⟩

/-- `HttpResponse::Status().json(..)` or `.body(..)`. -/
def json (status : Nat) (body : Body) : HttpResponse := ⟨status, none, body⟩

end HttpResponse

/-- `ApiResponse::success`. -/
def ApiResponse.success (data : ApiData) (message : String) : Body := .api true message (some data)

/-- `ApiResponse::error`. -/
def ApiResponse.error (message : String) : Body := .api false message none

/-- `auth_error_to_response`. -/
def auth_error_to_response (e : AuthError) : HttpResponse :=
  match e with
  | .MissingCredentials => .json 400 (ApiResponse.error e.to_string)
  | .PasswordTooShort => .json 400 (ApiResponse.error e.to_string)
  | .InvalidCredentials => .json 401 (ApiResponse.error e.to_string)
  | .InvalidToken => .json 401 (ApiResponse.error e.to_string)
  | .UserNotFound => .json 401 (ApiResponse.error e.to_string)
  | .UserAlreadyExists => .json 409 (ApiResponse.error e.to_string)
  | .Database _ => .finish 500
  | .Bcrypt => .finish 500
  | .Cache => .finish 500

theorem auth_error_status (e : AuthError) : (auth_error_to_response e).status ≠ 200 := by
  cases e <;> simp [auth_error_to_response, HttpResponse.json, HttpResponse.finish]

/-- `session_cookie`. -/
def session_cookie (c : Crates) (session : Uuid) : Cookie :=
  { name := "session", value := c.uuid_to_string session, path := "/", http_only := true,
    secure := true, same_site := "Strict", max_age := 30 * 24 * 60 * 60 }

/-- The cookie `logout` clears the session cookie with. -/
def removal_cookie : Cookie :=
  { name := "session", value := "", path := "/", http_only := true, secure := true,
    same_site := "Strict", max_age := 0 }

end Authnz
