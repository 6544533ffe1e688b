/-
Refresh-token and reset-token helpers (`domain/user/token.rs`).
-/
import Authnz.Model.World

namespace Authnz

open Basis

/-- `generate_raw_token`: 32 random bytes in base64url. -/
def generate_raw_token : Handler String := do
  let bytes ← ask (.fill 32)
  return base64url bytes

/-- `hash_token`: the lowercase hex SHA-256 of the token. -/
def hash_token (c : Crates) (raw : String) : String := c.sha256_hex raw

/-- `Utc::now()`. -/
def utc_now : Handler Time := ask .now

end Authnz
