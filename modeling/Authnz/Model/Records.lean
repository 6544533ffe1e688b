/-
The rows of the database.

One type `Record` holds the rows of every table, so that a transaction over several
tables is a transaction over one `Table Record`.  A `Relation` picks one table out
of it and carries the table's unique indexes.  Columns no query of the service reads
or writes are left out: `refresh_tokens.id`, `password_resets.created_at`, and the
`grants` table.  So is `sessions.role`, which the migration declares `NOT NULL` and no
`INSERT` of a session gives: a database that has it refuses every new session, which is
one of the failures an `INSERT` may meet here.
-/
import Authnz.Basis.ReadCommitted

namespace Authnz

/-- A UUID, as the number it is. -/
abbrev Uuid : Type := Nat

/-- `DateTime<Utc>`, in microseconds. -/
abbrev Time : Type := Int

def seconds (n : Int) : Time := n * 1000000

def minutes (n : Int) : Time := seconds (n * 60)

def hours (n : Int) : Time := minutes (n * 60)

def days (n : Int) : Time := hours (n * 24)

/-- A row of `users`. -/
structure User where
  id : Uuid
  username : String
  email : String
  created_at : Time
  password_hash : String
  updated_at : Time
  email_confirmed : Bool
  deriving DecidableEq

/-- What the repository reads hand out: a `User` without its `password_hash`. -/
structure UserResponse where
  id : Uuid
  username : String
  email : String
  created_at : Time
  updated_at : Time
  email_confirmed : Bool
  deriving DecidableEq

/-- `impl From<User> for UserResponse`. -/
def UserResponse.of (u : User) : UserResponse :=
  { id := u.id, username := u.username, email := u.email, created_at := u.created_at,
    updated_at := u.updated_at, email_confirmed := u.email_confirmed }

/-- The columns an update through the repository may set. -/
structure UpdateUser where
  username : Option String
  email_confirmed : Option Bool
  deriving DecidableEq

/-- Only the given columns are written. -/
def User.update (u : User) (dto : UpdateUser) : User :=
  { u with
    username := dto.username.getD u.username
    email_confirmed := dto.email_confirmed.getD u.email_confirmed }

/-- A row of `sessions`. -/
structure Session where
  id : Uuid
  sub : Uuid
  username : String
  email : String
  ip_address : String
  expires_at : Time
  deriving DecidableEq

/-- What a session is created from. -/
structure NewSession where
  sub : Uuid
  username : String
  email : String
  ip_address : String
  expires_at : Time
  deriving DecidableEq

def NewSession.withId (new : NewSession) (id : Uuid) : Session :=
  { id, sub := new.sub, username := new.username, email := new.email,
    ip_address := new.ip_address, expires_at := new.expires_at }

/-- A row of `refresh_tokens`; `revoked` is nullable. -/
structure RefreshToken where
  user_id : Uuid
  token_hash : String
  issuer : String
  expires_at : Time
  revoked : Option Bool
  created_at : Time
  deriving DecidableEq

/-- A row of `password_resets`; `used` is nullable. -/
structure PasswordReset where
  id : Uuid
  user_id : Uuid
  token_hash : String
  expires_at : Time
  used : Option Bool
  deriving DecidableEq

/-- A row of `passkey_credentials`. -/
structure PasskeyCredential where
  id : Uuid
  user_id : Uuid
  credential_id : String
  passkey_data : String
  label : Option String
  created_at : Time
  last_used_at : Option Time
  deriving DecidableEq

/-- What the service publishes through the outbox, under its subject. -/
inductive Event where
  /-- `auth.password_reset.requested` -/
  | password_reset_requested (email token : String)
  /-- `auth.2fa.challenge.requested` -/
  | challenge_requested (token : Nat) (link nonce : String)
  deriving DecidableEq

/-- A row of any table. -/
inductive Record where
  | user (u : User)
  | session (s : Session)
  | refresh_token (r : RefreshToken)
  | password_reset (p : PasswordReset)
  | passkey_credential (k : PasskeyCredential)
  | event (e : Event)
  deriving DecidableEq

/-- One table: its rows among the records, and which pairs its unique indexes exclude. -/
structure Relation (α : Type) where
  inj : α → Record
  prj : Record → Option α
  prj_inj : ∀ a, prj (inj a) = some a
  inj_of_prj : ∀ {r a}, prj r = some a → r = inj a
  clash : α → α → Bool

def users : Relation User where
  inj := .user
  prj | .user u => some u | _ => none
  prj_inj _ := rfl
  inj_of_prj {r a} h := by cases r <;> simp_all
  clash u v := u.id == v.id || u.username == v.username || u.email == v.email

def sessions : Relation Session where
  inj := .session
  prj | .session s => some s | _ => none
  prj_inj _ := rfl
  inj_of_prj {r a} h := by cases r <;> simp_all
  clash s t := s.id == t.id

def refresh_tokens : Relation RefreshToken where
  inj := .refresh_token
  prj | .refresh_token r => some r | _ => none
  prj_inj _ := rfl
  inj_of_prj {r a} h := by cases r <;> simp_all
  clash r s := r.token_hash == s.token_hash

def password_resets : Relation PasswordReset where
  inj := .password_reset
  prj | .password_reset p => some p | _ => none
  prj_inj _ := rfl
  inj_of_prj {r a} h := by cases r <;> simp_all
  clash p q := p.id == q.id || p.token_hash == q.token_hash

def passkey_credentials : Relation PasskeyCredential where
  inj := .passkey_credential
  prj | .passkey_credential k => some k | _ => none
  prj_inj _ := rfl
  inj_of_prj {r a} h := by cases r <;> simp_all
  clash k l := k.id == l.id || k.credential_id == l.credential_id

/-- The outbox table, written by `Outbox::push` inside the given transaction. -/
def outbox : Relation Event where
  inj := .event
  prj | .event e => some e | _ => none
  prj_inj _ := rfl
  inj_of_prj {r a} h := by cases r <;> simp_all
  clash _ _ := false

/-- What `DELETE` leaves. -/
def Relation.del (_ : Record) : Option Record := none

namespace Relation

variable {α : Type} (T : Relation α)

/-- A `WHERE` clause over the table, as a predicate on records. -/
def sel (p : α → Bool) (r : Record) : Bool := (T.prj r).any p

/-- A `SET` clause over the table, leaving the other tables' rows as they are. -/
def set (f : α → α) (r : Record) : Option Record :=
  match T.prj r with
  | some a => some (T.inj (f a))
  | none => some r

/-- The unique indexes, as a predicate on pairs of records. -/
def clashes (r s : Record) : Bool :=
  match T.prj r, T.prj s with
  | some a, some b => T.clash a b
  | _, _ => false

@[simp] theorem sel_inj (p : α → Bool) (a : α) : T.sel p (T.inj a) = p a := by
  simp [sel, T.prj_inj]

theorem sel_iff {p : α → Bool} {r : Record} : T.sel p r = true ↔ ∃ a, r = T.inj a ∧ p a = true := by
  unfold sel
  constructor
  · intro h
    cases hr : T.prj r with
    | none => simp [hr] at h
    | some a => exact ⟨a, T.inj_of_prj hr, by simpa [hr] using h⟩
  · rintro ⟨a, rfl, ha⟩
    simp [T.prj_inj, ha]

@[simp] theorem set_inj (f : α → α) (a : α) : T.set f (T.inj a) = some (T.inj (f a)) := by
  simp [set, T.prj_inj]

@[simp] theorem clashes_inj (a b : α) : T.clashes (T.inj a) (T.inj b) = T.clash a b := by
  simp [clashes, T.prj_inj]

end Relation

end Authnz
