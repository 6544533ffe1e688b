/-
The routes of the service, and runs of whole requests.

A `Request` is what a client sends to one of the routes `config` registers; its
handler is the one behind that route, the session middleware included where the
route has it.  `Runs` puts requests one after the other, each run to its end, with
cache entries expiring in between.

The passkey routes are taken as their handlers are written: the identity comes from
the handlers' own extractor, here asked the way the middleware is, and a `CredsRepo`
is at hand.  `config` mounts them outside the middleware and registers no `CredsRepo`,
so that as configured they answer 500 before a handler runs; its runs are those
without these requests.
-/
import Authnz.Model.Passkey
import Authnz.Model.Passwdless

namespace Authnz

open Basis

inductive Request (Reg Cred : Type) where
  | register (req : RegisterRequest)
  | login (req : LoginRequest) (params : SessionParams)
  | username_login (req : LoginRequest) (params : SessionParams)
  | request_password_reset (req : PasswordResetRequest)
  | confirm_password_reset (payload : PasswordResetConfirmRequest)
  | jwt_logout (cmd : LogoutCmd)
  | refresh (cmd : RefreshCmd)
  | jwt (cookie : String)
  | logout (cookie : String)
  | account (cookie : String)
  | change_password (cookie : String) (req : ChangePasswordRequest) (params : SessionParams)
  | get_sessions (cookie : String)
  | delete_session (cookie : String) (id : Uuid)
  /-- `PATCH /me/admin/users/{id}`, the user viewset's update. -/
  | update_user (cookie : String) (id : Uuid) (dto : UpdateUser)
  | challenge1 (email : String)
  | challenge2 (username : String)
  | confirm (link : String) (params : SessionParams)
  | confirm_token (token : Nat) (nonce : String) (params : SessionParams)
  | passkey_register_start (cookie : String)
  | passkey_register_finish (cookie : String) (label : Option String) (credential : Reg)
  | passkey_list (cookie : String)
  | passkey_remove (cookie : String) (row_id : Uuid)
  | passkey_login_start (username : String)
  | passkey_login_finish (username : String) (credential : Cred) (params : SessionParams)

/-- A viewset's answer to a call the repository refused. -/
def viewset_error (c : Crates) (e : ApiError) : HttpResponse :=
  .json (c.viewset_status (.failed e)) (.api_error e)

/-- The viewset's update: the repository's. -/
def handlers.update_user (c : Crates) (id : Uuid) (dto : UpdateUser) : Handler HttpResponse := do
  let updated ← ask (.update id dto)
  match (updated : Except ApiError UserResponse) with
  | .ok user => return .json (c.viewset_status .updated) (.user user)
  | .error e => return viewset_error c e

/-- The scheduler may choose anything. -/
def Anyhow (_ : World) (_ : Op) (_ : Choice) : Prop := True

section Routes

variable {Reg Cred : Type} (c : Crates) (jwt_svc : JwtService) (wa : Webauthn Reg Cred)

def Request.handler : Request Reg Cred → Handler HttpResponse
  | .register req => handlers.register c req
  | .login req params => handlers.login c req params
  | .username_login req params => handlers.username_login c req params
  | .request_password_reset req => handlers.request_password_reset c req
  | .confirm_password_reset payload => handlers.confirm_password_reset c payload
  | .jwt_logout cmd => handlers.jwt_logout jwt_svc cmd
  | .refresh cmd => handlers.refresh jwt_svc cmd
  | .jwt cookie => session_middleware cookie fun id => handlers.jwt jwt_svc id
  | .logout cookie => session_middleware cookie fun _ => handlers.logout c (some cookie)
  | .account cookie => session_middleware cookie fun id => handlers.protected_ id
  | .change_password cookie req params =>
      session_middleware cookie fun id => handlers.change_password c id req params
  | .get_sessions cookie => session_middleware cookie fun id => handlers.get_sessions id
  | .delete_session cookie id => session_middleware cookie fun sess => handlers.delete_session id sess
  | .update_user cookie id dto => session_middleware cookie fun _ => handlers.update_user c id dto
  | .challenge1 email => handlers.challenge1 email
  | .challenge2 username => handlers.challenge2 username
  | .confirm link params => handlers.confirm c link params
  | .confirm_token token nonce params => handlers.confirm_token c token nonce params
  | .passkey_register_start cookie =>
      session_middleware cookie fun session => passkey_register.start c wa session
  | .passkey_register_finish cookie label credential =>
      session_middleware cookie fun session =>
        passkey_register.finish c wa session label credential
  | .passkey_list cookie => session_middleware cookie fun session => passkey_register.list session
  | .passkey_remove cookie row_id =>
      session_middleware cookie fun session => passkey_register.remove session row_id
  | .passkey_login_start username => passkey_login.start wa username
  | .passkey_login_finish username credential params =>
      passkey_login.finish c wa username credential params

/-- Requests one after the other, with what each was answered. -/
inductive Runs (admits : World → Op → Choice → Prop) :
    World → List (Request Reg Cred × HttpResponse) → World → Prop where
  | nil (w : World) : Runs admits w [] w
  | request {req : Request Reg Cred} {resp : HttpResponse} {w w' w'' : World}
      {rest : List (Request Reg Cred × HttpResponse)}
      (hreq : Prog.Exec (World.answer c) 0 admits (req.handler c jwt_svc wa) w resp w')
      (hrest : Runs admits w' rest w'') : Runs admits w ((req, resp) :: rest) w''
  | expire (e : Expiry) {w w' : World} {rest : List (Request Reg Cred × HttpResponse)}
      (hrest : Runs admits (w.expire e) rest w') : Runs admits w rest w'

variable {c jwt_svc wa} {admits : World → Op → Choice → Prop}

/-- What every request and every expiry keep, the run keeps. -/
theorem Runs.invariant {I : World → Prop} {w w' : World}
    {served : List (Request Reg Cred × HttpResponse)} (h : Runs c jwt_svc wa admits w served w')
    (hreq : ∀ (req : Request Reg Cred) resp w w', I w →
      Prog.Exec (World.answer c) 0 admits (req.handler c jwt_svc wa) w resp w' → I w')
    (hexpire : ∀ e w, I w → I (w.expire e)) (hw : I w) : I w' := by
  induction h with
  | nil => exact hw
  | request hrun _ ih => exact ih (hreq _ _ _ _ hw hrun)
  | expire e _ ih => exact ih (hexpire e _ hw)

end Routes

end Authnz
