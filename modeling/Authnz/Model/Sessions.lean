/-
`SessionService` (`domain/session.rs`) over the `viewset` session repository.
-/
import Authnz.Model.Users

namespace Authnz

open Basis

/-- The session-facing user (`models.rs`). -/
structure SessionUser where
  sub : Uuid
  username : String
  email : String
  expires_at : Time
  deriving DecidableEq

/-- `models::User::new`. -/
def SessionUser.new (user : UserResponse) : Handler SessionUser := do
  return { sub := user.id, username := user.username, email := user.email,
           expires_at := (← utc_now) + minutes 30 }

structure SessionParams where
  ip_address : String
  user_agent : String
  deriving DecidableEq

/-- `impl From<ApiError> for AuthError`. -/
def AuthError.from : ApiError → AuthError
  | .Database e => .Database e
  | .NotFound | .Validation _ | .Forbidden | .Unauthorized | .Conflict _ | .StaleVersion
  | .Internal _ => .InvalidCredentials

namespace SessionRepo

/-- `SessionRepo::create`. -/
def create (new : NewSession) : Service AuthError Session :=
  attempt AuthError.Database <| insert_into sessions .pool new.withId

/-- `SessionRepo::list(filters!(sub))`: a page of the user's sessions.  The count beside it is
not used. -/
def list (sub : Uuid) : Handler (Except ApiError (List Session)) := ask (.list_sessions (some sub))

/-- `SessionRepo::retrieve`. -/
def retrieve (id : Uuid) : Service Error Session := ExceptT.mk (ask (.retrieve_session id))

/-- `SessionRepo::delete`. -/
def delete (id : Uuid) : Service Error Unit := do
  let rows ← attempt (fun _ => Error.database) <| delete_from sessions .pool fun s => s.id == id
  match rows with
  | _ :: _ => return ()
  | [] => throw .RowNotFound

end SessionRepo

namespace SessionService

variable (c : Crates)

def issue_session (user : SessionUser) (params : SessionParams) : Service AuthError Uuid := do
  let new : NewSession :=
    { email := user.email, sub := user.sub, username := user.username,
      expires_at := (← utc_now) + hours 1, ip_address := params.ip_address }
  let session ← SessionRepo.create new
  return session.id

/-- Destroy a single session; a session that is not there counts as destroyed. -/
def logout (session_id : String) : Service AuthError Unit :=
  match c.uuid_parse session_id with
  | none => throw .InvalidToken
  | some id => ExceptT.mk do
      match ← (SessionRepo.delete id).run with
      | .ok () => return .ok ()
      | .error .RowNotFound => return .ok ()
      | .error .database => return .error .Cache

/-- Delete the listed sessions one by one; a failure is logged and skipped. -/
def delete_each : List Session → Handler Unit
  | [] => return ()
  | session :: rest => do
      let _ ← (SessionRepo.delete session.id).run
      delete_each rest

/-- Revoke the sessions of the user that the listing returns. -/
def revoke_all_for_user (sub : Uuid) : Service AuthError Unit := do
  let sessions ← attempt AuthError.from (SessionRepo.list sub)
  ExceptT.lift (delete_each sessions)

end SessionService

end Authnz
