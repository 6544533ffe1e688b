/-
The service as a whole: every call, any number of them at once.

Beside the requests there are the lookup of a user id by username (`user_id.rs`) and
the rest of the two viewsets under `/me/admin`: the deletion of a user, the update and
the deletion of a session, and the calls that change nothing.  Each is the repository's
operation and its outcome as a response; the viewsets' own code is not part of this
repository.  Which columns of a session an update may set is left open.
-/
import Authnz.Model.Concurrent
import Authnz.Model.Requests

namespace Authnz

open Basis

namespace handlers

variable (c : Crates)

/-- `username2userid`. -/
def username2userid (username : String) : Handler HttpResponse := do
  match ← select_from users fun u => u.username == username with
  | .ok (u :: _) => return .json 200 (.text (c.uuid_to_string u.id))
  | .ok [] => return .finish 404
  | .error _ => return .finish 404

/-- The viewset's delete: the repository's. -/
def delete_user (id : Uuid) : Handler HttpResponse := do
  match ← Authnz.delete_user id with
  | .ok () => return .finish (c.viewset_status .deleted)
  | .error e => return viewset_error c e

end handlers

/-- What an update through the session viewset does to a row: never to its key. -/
abbrev SessionChange : Type := { change : Session → Session // ∀ s, (change s).id = s.id }

/-- The viewsets' calls that change nothing: listing, reading, and the creation that both
refuse. -/
inductive ViewsetRead where
  | users
  | user (id : Uuid)
  | new_user
  | sessions
  | session (id : Uuid)
  | new_session
  deriving DecidableEq

namespace viewset

variable (c : Crates)

/-- `SessionRepo::update`. -/
def update_session (id : Uuid) (change : SessionChange) : Handler HttpResponse := do
  match ← update_set Authnz.sessions .pool (fun s => s.id == id) change.1 with
  | .ok (s :: _) => return .json (c.viewset_status .updated) (.session s)
  | .ok [] => return viewset_error c .NotFound
  | .error e => return viewset_error c (.Database e)

/-- `SessionRepo::delete`. -/
def delete_session (id : Uuid) : Handler HttpResponse := do
  match ← (SessionRepo.delete id).run with
  | .ok () => return .finish (c.viewset_status .deleted)
  | .error .RowNotFound => return viewset_error c .NotFound
  | .error .database => return viewset_error c (.Database .other)

/-- `before_create`: neither viewset creates a row. -/
def before_create (endpoint : String) : HttpResponse :=
  viewset_error c (.Validation ("manual create not allowed, use " ++ endpoint ++ " endpoint"))

/-- The listings and lookups, and the refused creations. -/
def read : ViewsetRead → Handler HttpResponse
  | .users => do
      let listed ← ask .list_users
      match (listed : Except ApiError (List UserResponse)) with
      | .ok l => return .json (c.viewset_status .listed) (.users l)
      | .error e => return viewset_error c e
  | .user id => do
      let found ← ask (.retrieve id)
      match (found : Except ApiError UserResponse) with
      | .ok u => return .json (c.viewset_status .retrieved) (.user u)
      | .error e => return viewset_error c e
  | .new_user => return before_create c "registration"
  | .sessions => do
      let listed ← ask (.list_sessions none)
      match (listed : Except ApiError (List Session)) with
      | .ok l => return .json (c.viewset_status .listed) (.page l)
      | .error e => return viewset_error c e
  | .session id => do
      match ← (SessionRepo.retrieve id).run with
      | .ok s => return .json (c.viewset_status .retrieved) (.session s)
      | .error .RowNotFound => return viewset_error c .NotFound
      | .error .database => return viewset_error c (.Database .other)
  | .new_session => return before_create c "login"

end viewset

inductive ServiceCall (Reg Cred : Type) where
  | route (req : Request Reg Cred)
  | username2userid (username : String)
  /-- `DELETE /me/admin/users/{id}`. -/
  | delete_user (cookie : String) (id : Uuid)
  /-- `PATCH /me/admin/sessions/{id}`. -/
  | update_session (cookie : String) (id : Uuid) (change : SessionChange)
  /-- `DELETE /me/admin/sessions/{id}`. -/
  | delete_session (cookie : String) (id : Uuid)
  /-- `GET` and `POST` under `/me/admin`. -/
  | read (cookie : String) (what : ViewsetRead)

section Service

variable {Reg Cred : Type} (jwt_svc : JwtService) (wa : Webauthn Reg Cred)

def ServiceCall.handler : ServiceCall Reg Cred → Handler HttpResponse
  | .route req => req.handler jwt_svc.crates jwt_svc wa
  | .username2userid username => handlers.username2userid jwt_svc.crates username
  | .delete_user cookie id =>
      session_middleware cookie fun _ => handlers.delete_user jwt_svc.crates id
  | .update_session cookie id change =>
      session_middleware cookie fun _ => viewset.update_session jwt_svc.crates id change
  | .delete_session cookie id =>
      session_middleware cookie fun _ => viewset.delete_session jwt_svc.crates id
  | .read cookie what => session_middleware cookie fun _ => viewset.read jwt_svc.crates what

/-- All calls at once, statement by statement. -/
def whole_service :
    System Op Op.Reply Choice World (ServiceCall Reg Cred) Expiry HttpResponse :=
  service jwt_svc.crates (ServiceCall.handler jwt_svc wa)

/-- A moment of a run of the service. -/
abbrev ServiceState (Reg Cred : Type) : Type :=
  Config Op Op.Reply World (ServiceCall Reg Cred) HttpResponse

end Service

end Authnz
