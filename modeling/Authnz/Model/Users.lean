/-
`UserService` (`domain/user/service.rs`): password login, registration, password
change and password reset.
-/
import Authnz.Model.Token

namespace Authnz

open Basis

/-- `domain/user/errors.rs`. -/
inductive AuthError where
  | MissingCredentials
  | PasswordTooShort
  | InvalidCredentials
  | InvalidToken
  | UserNotFound
  | UserAlreadyExists
  | Database (e : DbError)
  | Bcrypt
  | Cache
  deriving DecidableEq

/-- The `#[error(..)]` texts. -/
def AuthError.to_string : AuthError → String
  | .MissingCredentials => "Username and password are required"
  | .PasswordTooShort => "Password must be at least 6 characters"
  | .InvalidCredentials => "Invalid credentials"
  | .InvalidToken => "Invalid or expired token"
  | .UserNotFound => "User not found"
  | .UserAlreadyExists => "Username already exists"
  | .Database _ => "Database error"
  | .Bcrypt => "Password hashing failed"
  | .Cache => "Cache failed"

structure PasswordLoginCmd where
  username : String
  password : String
  deriving DecidableEq

structure ChangePasswordCmd where
  user_id : Uuid
  current_password : String
  new_password : String
  deriving DecidableEq

structure RequestPasswordResetCmd where
  email : String
  deriving DecidableEq

structure ConfirmPasswordResetCmd where
  token : String
  new_password : String
  deriving DecidableEq

namespace UserService

variable (c : Crates)

def get_user_by_username (username : String) : Service AuthError User := do
  let rows ← attempt AuthError.Database <| select_from users fun u => u.username == username
  match rows with
  | u :: _ => return u
  | [] => throw .InvalidCredentials

def get_user_by_email (email : String) : Service AuthError User := do
  let rows ← attempt AuthError.Database <| select_from users fun u => u.email == email
  match rows with
  | u :: _ => return u
  | [] => throw .InvalidCredentials

/-- Public-facing lookup through the cached repository. -/
def get_user_by_id (id : Uuid) : Service AuthError UserResponse :=
  attempt (fun _ => AuthError.UserNotFound) (ask (.retrieve id))

/-- Credential lookup for password verification only. -/
def password_hash_for (id : Uuid) : Service AuthError String := do
  let rows ← attempt AuthError.Database <| select_from users fun u => u.id == id
  match rows with
  | u :: _ => return u.password_hash
  | [] => throw .UserNotFound

def create_user (username email password_hash : String) : Service AuthError User := do
  let now ← utc_now
  attempt (fun e => match e with
      | .unique_violation => AuthError.UserAlreadyExists
      | e => AuthError.Database e) <|
    insert_into users .pool fun id =>
      { id, username, email, password_hash, created_at := now, updated_at := now,
        email_confirmed := false }

/-- Validate the credentials of the account with this email. -/
def password_login (cmd : PasswordLoginCmd) : Service AuthError User := do
  if cmd.username.isEmpty || cmd.password.isEmpty then
    throw .MissingCredentials
  let user ← get_user_by_email cmd.username
  match c.bcrypt_verify cmd.password user.password_hash with
  | some true => return user
  | some false => throw .InvalidCredentials
  | none => throw .Bcrypt

/-- Validate the credentials of the account with this username. -/
def username_login (cmd : PasswordLoginCmd) : Service AuthError User := do
  if cmd.username.isEmpty || cmd.password.isEmpty then
    throw .MissingCredentials
  let user ← get_user_by_username cmd.username
  match c.bcrypt_verify cmd.password user.password_hash with
  | some true => return user
  | some false => throw .InvalidCredentials
  | none => throw .Bcrypt

/-- Hash the password and create a new user row. -/
def register (username email password : String) : Service AuthError Unit := do
  if username.isEmpty || password.isEmpty then
    throw .MissingCredentials
  if c.zxcvbn_score password < 3 then
    throw .PasswordTooShort
  let hash ← attempt (fun _ => AuthError.Bcrypt) (ask (.bcrypt_hash password))
  let _ ← create_user username email hash

/-- Verify the current password and set a new one. -/
def change_password (cmd : ChangePasswordCmd) : Service AuthError Unit := do
  if c.zxcvbn_score cmd.new_password < 3 then
    throw .PasswordTooShort
  let password_hash ← password_hash_for cmd.user_id
  let valid := (c.bcrypt_verify cmd.current_password password_hash).getD false
  if !valid then
    throw .InvalidCredentials
  let new_hash ← attempt (fun _ => AuthError.Bcrypt) (ask (.bcrypt_hash cmd.new_password))
  let _ ← attempt AuthError.Database <| update_set users .pool (fun u => u.id == cmd.user_id)
    (fun u => { u with password_hash := new_hash })

/-- Generate and store a reset token, and announce it through the outbox. -/
def request_password_reset (cmd : RequestPasswordResetCmd) : Service AuthError Unit := do
  let rows ← attempt AuthError.Database <| select_from users fun u => u.email == cmd.email
  match rows with
  -- silent: do not leak whether the address is registered
  | [] => return ()
  | u :: _ =>
      let raw ← generate_raw_token
      let hash := hash_token c raw
      let expires_at := (← utc_now) + minutes 30
      attempt AuthError.Database begin_tx
      in_tx do
        let _ ← attempt AuthError.Database <| insert_into password_resets .tx fun id =>
          { id, user_id := u.id, token_hash := hash, expires_at, used := some false }
        let _ ← attempt (fun _ => AuthError.Database .other) <|
          insert_into outbox .tx fun _ => .password_reset_requested cmd.email raw
        attempt AuthError.Database commit_tx

/-- Validate the reset token and apply the new password. -/
def confirm_password_reset (cmd : ConfirmPasswordResetCmd) : Service AuthError Uuid := do
  if c.zxcvbn_score cmd.new_password < 3 then
    throw .PasswordTooShort
  let token_hash := hash_token c cmd.token
  let now ← utc_now
  attempt AuthError.Database begin_tx
  in_tx do
    let rows ← attempt AuthError.Database <| update_set password_resets .tx
      (fun p => p.token_hash == token_hash && p.used == some false && decide (now < p.expires_at))
      (fun p => { p with used := some true })
    match rows with
    | [] => throw .InvalidToken
    | reset :: _ =>
        let new_hash ← attempt (fun _ => AuthError.Bcrypt) (ask (.bcrypt_hash cmd.new_password))
        let _ ← attempt AuthError.Database <| update_set users .tx (fun u => u.id == reset.user_id)
          (fun u => { u with password_hash := new_hash, updated_at := now })
        attempt AuthError.Database commit_tx
        return reset.user_id

end UserService

/-! ### Deleting a user -/

/-- What `DELETE FROM users WHERE id = $1` takes away: the user, and by `ON DELETE CASCADE`
everything that refers to them. -/
def Cascades (id : Uuid) : Record → Bool
  | .user u => u.id == id
  | .session s => s.sub == id
  | .refresh_token r => r.user_id == id
  | .password_reset p => p.user_id == id
  | .passkey_credential k => k.user_id == id
  | .event _ => false

/-- The deletion of a user through the admin viewset. -/
def delete_user (id : Uuid) : Handler (Except ApiError Unit) := do
  let r ← ask (.sql (.write .pool (Cascades id) Relation.del))
  return match users.decode r with
    | .ok (_ :: _) => .ok ()
    | .ok [] => .error .NotFound
    | .error e => .error (.Database e)

/-! ### The statements' clauses, by name -/

/-- The lookups by email and by username, for their own condition. -/
def lookup (q : User → Bool) : Service AuthError User := do
  let rows ← attempt AuthError.Database (select_from users q)
  match rows with
  | u :: _ => return u
  | [] => throw .InvalidCredentials

def UserIs (id : Uuid) : User → Bool := fun u => u.id == id

def Redeemable (hash : String) (now : Time) : PasswordReset → Bool := fun p =>
  p.token_hash == hash && p.used == some false && decide (now < p.expires_at)

theorem redeemable_hash {hash : String} {now : Time} {p : PasswordReset}
    (h : Redeemable hash now p = true) : p.token_hash = hash := by
  simp only [Redeemable, Bool.and_eq_true, beq_iff_eq] at h
  exact h.1.1

def PasswordReset.spent (p : PasswordReset) : PasswordReset := { p with used := some true }

def User.with_hash (u : User) (hash : String) : User := { u with password_hash := hash }

def User.with_hash_at (u : User) (hash : String) (now : Time) : User :=
  { u with password_hash := hash, updated_at := now }

end Authnz
