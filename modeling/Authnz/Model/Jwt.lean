/-
`JwtService` (`domain/jwt`): refresh tokens and their rotation.
-/
import Authnz.Model.Token

namespace Authnz

open Basis

/-- The errors of the JWT service (`domain/jwt/error.rs`) that `JwtService` returns. -/
inductive JwtError where
  | MissingRefreshToken
  | RefreshTokenNotFound
  | RefreshTokenExpired
  | TokenSigning (e : String)
  | UserNotFound
  | Database (e : DbError)
  deriving DecidableEq

structure RefreshCmd where
  refresh_token : String
  deriving DecidableEq

structure LogoutCmd where
  refresh_token : String
  deriving DecidableEq

structure JwtResult where
  access_token : String
  refresh_token : String
  expires_in : Nat
  deriving DecidableEq

/-- The columns `get_refresh_token_by_hash` hands on. -/
structure RefreshTokenRow where
  user_id : Uuid
  issuer : String
  expires_at : Time
  revoked : Bool
  deriving DecidableEq

def REFRESH_TOKEN_EXPIRY_DAYS : Int := 30

structure JwtService where
  crates : Crates
  aud : List String

namespace JwtService

variable (self : JwtService)

/-- Generic backing for `issue_token_pair` so it can run inside a transaction. -/
def issue_token_pair_with (executor : Executor) (user_id : Uuid) (issuer : String) :
    Service JwtError JwtResult := do
  let access_token ← attempt JwtError.TokenSigning (ask (.sign user_id self.aud))
  let raw_refresh ← generate_raw_token
  let token_hash := hash_token self.crates raw_refresh
  let expires_at := (← utc_now) + days REFRESH_TOKEN_EXPIRY_DAYS
  let now ← utc_now
  let _ ← attempt JwtError.Database <| insert_into refresh_tokens executor fun _ =>
    { user_id, token_hash, issuer, expires_at, revoked := some false, created_at := now }
  return { access_token, refresh_token := raw_refresh, expires_in := 600 }

/-- Issue a fresh access token and refresh token. -/
def issue_token_pair (user_id : Uuid) (issuer : String) : Service JwtError JwtResult :=
  self.issue_token_pair_with .pool user_id issuer

/-- Every failure of the lookup, a `NULL` in `revoked` included, is `RefreshTokenNotFound`. -/
def get_refresh_token_by_hash (hash : String) : Service JwtError RefreshTokenRow := do
  let rows ← attempt (fun _ => JwtError.RefreshTokenNotFound) <|
    select_from refresh_tokens fun r => r.token_hash == hash
  match rows with
  | [] => throw .RefreshTokenNotFound
  | r :: _ =>
      match r.revoked with
      | some revoked =>
          return { user_id := r.user_id, issuer := r.issuer, expires_at := r.expires_at, revoked }
      | none => throw .RefreshTokenNotFound

/-- Hard-delete a single refresh token by hash (rotation). -/
def delete_refresh_token_by_hash (executor : Executor) (hash : String) : Service JwtError Unit := do
  let _ ← attempt JwtError.Database <| delete_from refresh_tokens executor fun r =>
    r.token_hash == hash

/-- Soft-revoke a single refresh token (logout path). -/
def revoke_refresh_token_by_hash (hash : String) : Service JwtError Unit := do
  let result ← attempt JwtError.Database <| update_set refresh_tokens .pool
    (fun r => r.token_hash == hash) (fun r => { r with revoked := some true })
  if result.length = 0 then
    throw .RefreshTokenNotFound

/-- Soft-revoke all tokens of a user (password change, reset). -/
def revoke_all_user_tokens (user_id : Uuid) : Service JwtError Unit := do
  let _ ← attempt JwtError.Database <| update_set refresh_tokens .pool
    (fun r => r.user_id == user_id) (fun r => { r with revoked := some true })

/-- Exchange a valid refresh token for a new token pair. -/
def refresh (cmd : RefreshCmd) : Service JwtError JwtResult := do
  let raw := trim cmd.refresh_token
  if raw.isEmpty then
    throw .MissingRefreshToken
  let hash := hash_token self.crates raw
  attempt JwtError.Database begin_tx
  in_tx do
    let row ← get_refresh_token_by_hash hash
    if row.revoked then
      throw .RefreshTokenNotFound
    if row.expires_at < (← utc_now) then
      throw .RefreshTokenExpired
    let user ← attempt (fun _ => JwtError.UserNotFound) (ask (.retrieve row.user_id))
    delete_refresh_token_by_hash .tx hash
    let result ← self.issue_token_pair_with .tx user.id row.issuer
    attempt JwtError.Database commit_tx
    return result

/-- Revoke a refresh token; a token that is not there counts as revoked. -/
def logout (cmd : LogoutCmd) : Service JwtError Unit := do
  let raw := trim cmd.refresh_token
  if raw.isEmpty then
    throw .MissingRefreshToken
  let hash := hash_token self.crates raw
  ExceptT.mk do
    match ← (revoke_refresh_token_by_hash hash).run with
    | .ok () => return .ok ()
    | .error .RefreshTokenNotFound => return .ok ()
    | .error e => return .error e

end JwtService

end Authnz
