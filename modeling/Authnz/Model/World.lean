/-
What the service asks of the outside, and what the outside makes of it.

Every function of the service is a program over `Op`: one SQL statement, one cache
operation, one clock reading, one draw of random bytes each.  `World.answer` says
what each does.  The crates' pure functions are the parameter `Crates`; everything
that can fail, that is drawn at random or that depends on a cache is a `Choice` of
the scheduler, so a statement about every run covers every failure and every draw.

`UserRepository`, `SessionRepo` and `SessionMiddleware` come from the `viewset` crate,
whose source is not part of this repository.  What they answer is the scheduler's, as
far as the service does not rely on it:

* the middleware lets a cookie in as whatever identity its own cache has for it, or
  not at all;
* a listing is a page, possibly of a cached list, and a session read may be a copy; what
  is relied on is that a listing names sessions of the user it was asked for, and that a
  session is shown with the owner its row has, as long as the row is there;
* the user repository may serve a copy it loaded earlier, and may refuse an update;
* which status a viewset answers with is its own (`Crates.viewset_status`).
-/
import Mathlib.Logic.Function.Basic
import Authnz.Basis.Text
import Authnz.Model.Records

namespace Authnz

open Basis

/-- `viewset::ApiError`. -/
inductive ApiError where
  | Database (e : DbError)
  | NotFound
  | Validation (message : String)
  | Forbidden
  | Unauthorized
  | Conflict (message : String)
  | StaleVersion
  | Internal (message : String)
  deriving DecidableEq

/-- What a viewset answers about. -/
inductive ViewsetOutcome where
  | listed
  | retrieved
  | updated
  | deleted
  | failed (e : ApiError)
  deriving DecidableEq

/-- The crates' functions the service's results depend on. -/
structure Crates where
  /-- `format!("{:x}", Sha256::digest(..))`. -/
  sha256_hex : String → String
  /-- `bcrypt::hash(password, 10)` with this salt. -/
  bcrypt_hash : String → Nat → String
  /-- `bcrypt::verify(password, hash)`; `none` is its error on a malformed hash. -/
  bcrypt_verify : String → String → Option Bool
  zxcvbn_score : String → Nat
  /-- `#[validate(email)]`. -/
  validate_email : String → Bool
  uuid_to_string : Uuid → String
  uuid_parse : String → Option Uuid
  /-- The status a `DefaultViewSet` answers with. -/
  viewset_status : ViewsetOutcome → Nat

/-- What the viewsets document of their statuses: an error is one, a success is none. -/
structure Crates.ViewsetDocumented (c : Crates) : Prop where
  failure : ∀ e, 400 ≤ c.viewset_status (.failed e)
  success : ∀ o, (∀ e, o ≠ .failed e) → c.viewset_status o < 400

/-- What bcrypt sees of a password: 72 bytes of it, a closing NUL included and repeated from
the start as often as it takes. -/
def bcrypt_key (password : String) : List UInt8 :=
  let key := utf8 password ++ [0]
  (List.range 72).map fun i => key.getD (i % key.length) 0

/-! ### Passkeys, as far as the service looks into them -/

/-- A stored credential: its id, the signature counter, the rest. -/
structure Passkey where
  cred_id : List UInt8
  counter : Nat
  key : String
  deriving DecidableEq

/-- The state of a login ceremony: the challenge and the credentials it may use. -/
structure PasskeyAuthentication where
  challenge : String
  credentials : List Passkey
  deriving DecidableEq

/-- The state of a registration ceremony. -/
structure PasskeyRegistration where
  challenge : String
  user_id : Uuid
  exclude : List (List UInt8)
  deriving DecidableEq

structure TimedRegState where
  issued_at_secs : Nat
  state : PasskeyRegistration
  deriving DecidableEq

structure TimedAuthState where
  issued_at_secs : Nat
  state : PasskeyAuthentication
  deriving DecidableEq

/-! ### The passwordless caches -/

/-- One challenge, as it lies in both caches. -/
structure FA2Entry where
  link : String
  token : Nat
  email : Uuid
  nonce : String
  deriving DecidableEq

/-- What `SessionMiddleware` hands to a handler (`viewset::web::Identity`). -/
structure Identity where
  sub : Uuid
  username : String
  email : String
  deriving DecidableEq

/-! ### Operations -/

inductive Op where
  | sql (o : SqlOp Record)
  /-- `UserRepository::retrieve`. -/
  | retrieve (id : Uuid)
  /-- `UserRepository::update`. -/
  | update (id : Uuid) (dto : UpdateUser)
  /-- `UserRepository::list`. -/
  | list_users
  /-- `SessionRepo::list`, for `filters!(sub)` or without a filter. -/
  | list_sessions (sub : Option Uuid)
  /-- `SessionRepo::retrieve`. -/
  | retrieve_session (id : Uuid)
  /-- `SessionMiddleware` looks the cookie's session up. -/
  | authenticate (cookie : String)
  /-- `Utc::now()`. -/
  | now
  /-- `rng().fill(&mut [0u8; n])`. -/
  | fill (n : Nat)
  /-- `rng.random_range(lo..hi)`. -/
  | random_range (lo hi : Nat)
  /-- `bcrypt::hash(password, 10)`. -/
  | bcrypt_hash (password : String)
  /-- `signer.sign(&Identity::new(sub, aud))`. -/
  | sign (sub : Uuid) (aud : List String)
  | tokens_insert (key : String) (entry : FA2Entry)
  | tokens_remove (key : String)
  | links_insert (key : String) (entry : FA2Entry)
  | links_remove (key : String)
  | reg_get (key : String)
  | reg_set (key : String) (state : TimedRegState)
  | reg_delete (key : String)
  | auth_get (key : String)
  | auth_set (key : String) (state : TimedAuthState)
  | auth_delete (key : String)
  /-- The challenge `start_passkey_registration` and `start_passkey_authentication` draw. -/
  | challenge

/-- A failed cache or repository call. -/
inductive Failed where
  | failed
  deriving DecidableEq

/-- Why a session could not be read or deleted: `sqlx::Error`, as far as it is told apart. -/
inductive SessionRepo.Error where
  | RowNotFound
  | database
  deriving DecidableEq

def Op.Reply : Op → Type
  | .sql o => o.Reply
  | .retrieve _ => Except ApiError UserResponse
  | .update _ _ => Except ApiError UserResponse
  | .list_users => Except ApiError (List UserResponse)
  | .list_sessions _ => Except ApiError (List Session)
  | .retrieve_session _ => Except SessionRepo.Error Session
  | .authenticate _ => Option Identity
  | .now => Time
  | .fill _ => List UInt8
  | .random_range _ _ => Nat
  | .bcrypt_hash _ => Except Failed String
  | .sign _ _ => Except String String
  | .tokens_insert _ _ => Unit
  | .tokens_remove _ => Option FA2Entry
  | .links_insert _ _ => Unit
  | .links_remove _ => Option FA2Entry
  | .reg_get _ => Except Failed (Option TimedRegState)
  | .reg_set _ _ => Except Failed Unit
  | .reg_delete _ => Except Failed Unit
  | .auth_get _ => Except Failed (Option TimedAuthState)
  | .auth_set _ _ => Except Failed Unit
  | .auth_delete _ => Except Failed Unit
  | .challenge => Except String String

instance Op.nonempty_reply (o : Op) : Nonempty o.Reply := by
  cases o with
  | sql o => cases o <;> first | exact ⟨.error .other⟩ | exact ⟨()⟩
  | retrieve | update | list_users | list_sessions => exact ⟨.error .NotFound⟩
  | retrieve_session => exact ⟨.error .database⟩
  | authenticate | tokens_remove | links_remove => exact ⟨none⟩
  | now => exact ⟨(0 : Int)⟩
  | fill => exact ⟨([] : List UInt8)⟩
  | random_range => exact ⟨(0 : Nat)⟩
  | sign | challenge => exact ⟨.error ""⟩
  | tokens_insert | links_insert => exact ⟨()⟩
  | bcrypt_hash | reg_get | reg_set | reg_delete | auth_get | auth_set | auth_delete =>
      exact ⟨.error .failed⟩

/-- What the scheduler decides when an operation is carried out. -/
inductive Choice where
  | go
  | fail
  /-- The key the database generates for a new row. -/
  | key (n : Uuid)
  /-- The repository serves the copy it has. -/
  | cached
  /-- A repository answers with an error. -/
  | refuse (e : ApiError)
  /-- The middleware finds this identity. -/
  | identity (id : Identity)
  /-- A listing returns these. -/
  | users (l : List UserResponse)
  | sessions (l : List Session)
  /-- A lookup of a session returns this one. -/
  | session (s : Session)
  | time (t : Time)
  | bytes (bs : List UInt8)
  | number (n : Nat)
  | text (s : String)
  deriving DecidableEq

/-- The state all requests share. -/
structure World where
  db : Table Record
  /-- The user repository's item cache; an entry is a copy of the row with that id. -/
  user_cache : (id : Uuid) → Option { u : UserResponse // u.id = id }
  tokens : String → Option FA2Entry
  links : String → Option FA2Entry
  reg_store : String → Option TimedRegState
  auth_store : String → Option TimedAuthState

/-- A freshly started service over these rows. -/
def World.of (rows : List Record) : World :=
  { db := rows.map Slot.loaded, user_cache := fun _ => none, tokens := fun _ => none,
    links := fun _ => none, reg_store := fun _ => none, auth_store := fun _ => none }

namespace World

/-- The committed rows of a table. -/
def rows {α : Type} (T : Relation α) (w : World) : List α :=
  (w.db.filterMap Slot.current).filterMap T.prj

/-- `SELECT .. WHERE id = $1` on `users`, as the repository loads it. -/
def load (w : World) (id : Uuid) : Option { u : UserResponse // u.id = id } :=
  match h : (w.rows users).find? (fun u => u.id == id) with
  | some u => some ⟨UserResponse.of u, by simpa [UserResponse.of] using List.find?_some h⟩
  | none => none

/-- How a database statement takes a choice. -/
def outcome : Choice → Option Outcome
  | .go => some (.done 0)
  | .key n => some (.done n)
  | .fail => some .fault
  | _ => none

def answerSql (me : Nat) (o : SqlOp Record) (ch : Choice) (w : World) : Option (World × o.Reply) :=
  match outcome ch with
  | some out => (SqlOp.answer me o out w.db).map fun p => ({ w with db := p.1 }, p.2)
  | none => none

/-- `UserRepository::retrieve`: the copy at hand, or the row as it is now. -/
def answerRetrieve (id : Uuid) (ch : Choice) (w : World) :
    Option (World × Except ApiError UserResponse) :=
  match ch with
  | .cached => (w.user_cache id).map fun u => (w, .ok u.1)
  | .go =>
      match w.load id with
      | some u => some ({ w with user_cache := Function.update w.user_cache id (some u) }, .ok u.1)
      | none => some (w, .error .NotFound)
  | .fail => some (w, .error (.Database .other))
  | _ => none

/-- `UserRepository::update`: one statement of its own, and the cache gets the new row.  It
cannot go through without the row, nor against a unique index. -/
def answerUpdate (me : Nat) (id : Uuid) (dto : UpdateUser) (w : World) :
    Option (World × Except ApiError UserResponse) :=
  match (w.rows users).find? (fun u => u.id == id) with
  | none => none
  | some u =>
      let new := u.update dto
      if (w.rows users).any fun v => v.id != id && users.clash new v then
        none
      else
        match SqlOp.answer me (.write .pool (users.sel fun v => v.id == id)
            (users.set fun v => v.update dto)) (.done 0) w.db with
        | some (db, _) =>
            let copy : { r : UserResponse // r.id = new.id } := ⟨UserResponse.of new, rfl⟩
            some ({ w with db, user_cache := Function.update w.user_cache new.id (some copy) },
              .ok copy)
        | none => none

/-- The session's row, if it is still there, has the same owner. -/
def shows (w : World) (s : Session) : Bool :=
  (w.rows sessions).all fun t => t.id != s.id || t.sub == s.sub

/-- A page of the sessions asked for: how many it holds, and how old it is, is open. -/
def lists (w : World) (sub : Option Uuid) (l : List Session) : Bool :=
  l.all fun s => sub.all (fun u => s.sub == u) && w.shows s

/-- `SessionRepo::list`: a page, or an error. -/
def answerListSessions (sub : Option Uuid) (ch : Choice) (w : World) :
    Option (World × Except ApiError (List Session)) :=
  match ch with
  | .sessions l => if w.lists sub l then some (w, .ok l) else none
  | .refuse e => some (w, .error e)
  | _ => none

/-- `SessionRepo::retrieve`: a copy of the session, cached or not, or an error. -/
def answerRetrieveSession (id : Uuid) (ch : Choice) (w : World) :
    Option (World × Except SessionRepo.Error Session) :=
  match ch with
  | .session s => if s.id == id && w.shows s then some (w, .ok s) else none
  | .go => some (w, .error .RowNotFound)
  | .fail => some (w, .error .database)
  | _ => none

/-- An operation that always succeeds. -/
def done {α : Type} (ch : Choice) (a : α) : Option α :=
  match ch with
  | .go => some a
  | _ => none

/-- An operation that may fail. -/
def doneOr {α : Type} (ch : Choice) (failed a : α) : Option α :=
  match ch with
  | .go => some a
  | .fail => some failed
  | _ => none

/-- What an operation does, for the choice the scheduler makes. -/
def answer (c : Crates) (me : Nat) (o : Op) (ch : Choice) (w : World) :
    Option (World × o.Reply) :=
  match o with
  | .sql o => answerSql me o ch w
  | .retrieve id => answerRetrieve id ch w
  | .update id dto =>
      match ch with
      | .go => answerUpdate me id dto w
      | .refuse e => some (w, .error e)
      | _ => none
  | .list_users =>
      match ch with
      | .users l => some (w, .ok l)
      | .refuse e => some (w, .error e)
      | _ => none
  | .list_sessions sub => answerListSessions sub ch w
  | .retrieve_session id => answerRetrieveSession id ch w
  | .authenticate _ =>
      match ch with
      | .identity id => some (w, some id)
      | .fail => some (w, none)
      | _ => none
  | .now =>
      match ch with
      | .time t => some (w, t)
      | _ => none
  | .fill n =>
      match ch with
      | .bytes bs => if bs.length = n then some (w, bs) else none
      | _ => none
  | .random_range lo hi =>
      match ch with
      | .number n => if lo ≤ n ∧ n < hi then some (w, n) else none
      | _ => none
  | .bcrypt_hash password =>
      match ch with
      | .number salt => some (w, .ok (c.bcrypt_hash password salt))
      | .fail => some (w, .error .failed)
      | _ => none
  | .sign _ _ =>
      match ch with
      | .text token => some (w, .ok token)
      | .fail => some (w, .error "signing failed")
      | _ => none
  | .tokens_insert k e => done ch ({ w with tokens := Function.update w.tokens k (some e) }, ())
  | .tokens_remove k => done ch ({ w with tokens := Function.update w.tokens k none }, w.tokens k)
  | .links_insert k e => done ch ({ w with links := Function.update w.links k (some e) }, ())
  | .links_remove k => done ch ({ w with links := Function.update w.links k none }, w.links k)
  | .reg_get k => doneOr ch (w, .error .failed) (w, .ok (w.reg_store k))
  | .reg_set k s =>
      doneOr ch (w, .error .failed)
        ({ w with reg_store := Function.update w.reg_store k (some s) }, .ok ())
  | .reg_delete k =>
      doneOr ch (w, .error .failed)
        ({ w with reg_store := Function.update w.reg_store k none }, .ok ())
  | .auth_get k => doneOr ch (w, .error .failed) (w, .ok (w.auth_store k))
  | .auth_set k s =>
      doneOr ch (w, .error .failed)
        ({ w with auth_store := Function.update w.auth_store k (some s) }, .ok ())
  | .auth_delete k =>
      doneOr ch (w, .error .failed)
        ({ w with auth_store := Function.update w.auth_store k none }, .ok ())
  | .challenge =>
      match ch with
      | .text s => some (w, .ok s)
      | .fail => some (w, .error "WebAuthn error")
      | _ => none

/-! ### What each operation needs and does -/

theorem done_iff {α : Type} {ch : Choice} {a b : α} : done ch a = some b ↔ ch = .go ∧ b = a := by
  cases ch <;> simp [done, eq_comm]

theorem doneOr_iff {α : Type} {ch : Choice} {failed a b : α} :
    doneOr ch failed a = some b ↔ ch = .go ∧ b = a ∨ ch = .fail ∧ b = failed := by
  cases ch <;> simp [doneOr, eq_comm]

section Answers

variable {c : Crates} {me : Nat} {ch : Choice} {w w' : World}

/-- A statement changes the database alone, as the database says. -/
theorem answer_sql {o : SqlOp Record} {r : Op.Reply (.sql o)}
    (h : answer c me (.sql o) ch w = some (w', r)) :
    ∃ out, outcome ch = some out ∧ SqlOp.answer me o out w.db = some (w'.db, r) ∧
      w' = { w with db := w'.db } := by
  change answerSql me o ch w = some (w', r) at h
  unfold answerSql at h
  split at h
  · rename_i out hout
    obtain ⟨⟨db, r'⟩, hans, heq⟩ := Option.map_eq_some_iff.mp h
    cases heq
    exact ⟨out, hout, hans, rfl⟩
  · cases h

/-- A lookup fills the user cache and nothing else, and finds the user it was asked for. -/
theorem answer_retrieve {id : Uuid} {r : Op.Reply (.retrieve id)}
    (h : answer c me (.retrieve id) ch w = some (w', r)) :
    w' = { w with user_cache := w'.user_cache } ∧
      (∀ u : UserResponse, r = Except.ok u → u.id = id) := by
  change answerRetrieve id ch w = some (w', r) at h
  unfold answerRetrieve at h
  split at h
  · obtain ⟨u, -, heq⟩ := Option.map_eq_some_iff.mp h
    cases heq
    refine ⟨rfl, fun v hv => ?_⟩
    cases hv
    exact u.2
  · split at h
    · rename_i u hu
      cases h
      refine ⟨rfl, fun v hv => ?_⟩
      cases hv
      exact u.2
    · cases h
      exact ⟨rfl, fun v hv => by cases hv⟩
  · cases h
    exact ⟨rfl, fun v hv => by cases hv⟩
  · cases h

/-- An update through the repository is refused, or one statement and a new copy. -/
theorem answer_update {id : Uuid} {dto : UpdateUser} {r : Op.Reply (.update id dto)}
    (h : answer c me (.update id dto) ch w = some (w', r)) :
    (w' = w ∧ ∃ e, r = Except.error e) ∨
      ∃ u r', (w.rows users).find? (fun v => v.id == id) = some u ∧
        (∀ v ∈ w.rows users, v.id ≠ id → users.clash (u.update dto) v = false) ∧
        SqlOp.answer me (.write .pool (users.sel fun v => v.id == id)
          (users.set fun v => v.update dto)) (.done 0) w.db = some (w'.db, r') ∧
        w' = { w with db := w'.db, user_cache := w'.user_cache } := by
  cases ch with
  | go =>
      change answerUpdate me id dto w = some (w', r) at h
      unfold answerUpdate at h
      split at h
      · cases h
      · rename_i u hu
        dsimp only at h
        by_cases hclash : ((w.rows users).any fun v => v.id != id && users.clash (u.update dto) v) =
            true
        · rw [if_pos hclash] at h
          cases h
        · rw [if_neg hclash] at h
          split at h
          · rename_i db r' hans
            cases h
            refine .inr ⟨u, r', hu, fun v hv hne => ?_, hans, rfl⟩
            by_contra hc
            exact hclash (List.any_eq_true.mpr ⟨v, hv, by simp [hne, hc]⟩)
          · cases h
  | refuse e =>
      cases h
      exact .inl ⟨rfl, _, rfl⟩
  | _ => cases h

/-- The row of a session shown, if it is there, has the owner shown. -/
theorem owner_of_shows {s t : Session} (h : w.shows s = true) (ht : t ∈ w.rows sessions)
    (hid : t.id = s.id) : t.sub = s.sub := by
  rcases Bool.or_eq_true_iff.mp (List.all_eq_true.mp h t ht) with hne | heq
  · exact absurd hid (bne_iff_ne.mp hne)
  · exact beq_iff_eq.mp heq

/-- What a listing for one user names is that user's, in the listing and in the table. -/
theorem owner_of_lists {u : Uuid} {l : List Session} (h : w.lists (some u) l = true) {s : Session}
    (hs : s ∈ l) : s.sub = u ∧ ∀ t ∈ w.rows sessions, t.id = s.id → t.sub = u := by
  obtain ⟨hsub, hshows⟩ := Bool.and_eq_true_iff.mp (List.all_eq_true.mp h s hs)
  have hsub : s.sub = u := beq_iff_eq.mp hsub
  exact ⟨hsub, fun t ht hid => (owner_of_shows hshows ht hid).trans hsub⟩

/-- A listing changes nothing, and is a page of what was asked for. -/
theorem answer_list_sessions {sub : Option Uuid} {r : Op.Reply (.list_sessions sub)}
    (h : answer c me (.list_sessions sub) ch w = some (w', r)) :
    w' = w ∧ ((∃ l, ch = .sessions l ∧ w.lists sub l = true ∧ r = Except.ok l) ∨
      ∃ e, ch = .refuse e ∧ r = Except.error e) := by
  cases ch with
  | sessions l =>
      obtain ⟨hl, h⟩ := Option.ite_none_right_eq_some.mp h
      cases h
      exact ⟨rfl, .inl ⟨l, rfl, hl, rfl⟩⟩
  | refuse e =>
      cases h
      exact ⟨rfl, .inr ⟨e, rfl, rfl⟩⟩
  | _ => cases h

/-- Reading a session changes nothing, and what is read is the session asked for. -/
theorem answer_retrieve_session {id : Uuid} {r : Op.Reply (.retrieve_session id)}
    (h : answer c me (.retrieve_session id) ch w = some (w', r)) :
    w' = w ∧ ∀ s : Session, r = Except.ok s → s.id = id ∧ w.shows s = true := by
  cases ch with
  | session s =>
      obtain ⟨hs, h⟩ := Option.ite_none_right_eq_some.mp h
      cases h
      obtain ⟨hid, hshows⟩ := Bool.and_eq_true_iff.mp hs
      refine ⟨rfl, fun t ht => ?_⟩
      cases ht
      exact ⟨beq_iff_eq.mp hid, hshows⟩
  | go | fail =>
      cases h
      exact ⟨rfl, fun t ht => by cases ht⟩
  | _ => cases h

/-- The middleware changes nothing. -/
theorem answer_authenticate {cookie : String} {r : Op.Reply (.authenticate cookie)}
    (h : answer c me (.authenticate cookie) ch w = some (w', r)) :
    w' = w ∧ ((∃ id, ch = .identity id ∧ r = some id) ∨ ch = .fail ∧ r = none) := by
  cases ch with
  | identity id =>
      cases h
      exact ⟨rfl, .inl ⟨id, rfl, rfl⟩⟩
  | fail =>
      cases h
      exact ⟨rfl, .inr ⟨rfl, rfl⟩⟩
  | _ => cases h

/-- The operations that leave everything as it is. -/
def Idle : Op → Prop
  | .list_users | .list_sessions _ | .retrieve_session _ | .authenticate _ => True
  | .now | .fill _ | .random_range _ _ | .bcrypt_hash _ | .sign _ _ | .challenge => True
  | .reg_get _ | .auth_get _ => True
  | _ => False

theorem answer_idle {o : Op} {r : o.Reply} (h : answer c me o ch w = some (w', r))
    (ho : Idle o) : w' = w := by
  cases o with
  | list_sessions sub => exact (answer_list_sessions h).1
  | retrieve_session id => exact (answer_retrieve_session h).1
  | authenticate cookie => exact (answer_authenticate h).1
  | fill n =>
      cases ch with
      | bytes bs =>
          obtain ⟨-, h⟩ := Option.ite_none_right_eq_some.mp h
          cases h
          rfl
      | _ => cases h
  | random_range lo hi =>
      cases ch with
      | number n =>
          obtain ⟨-, h⟩ := Option.ite_none_right_eq_some.mp h
          cases h
          rfl
      | _ => cases h
  | reg_get k | auth_get k =>
      rcases doneOr_iff.mp h with ⟨-, heq⟩ | ⟨-, heq⟩ <;> cases heq <;> rfl
  | list_users | now | bcrypt_hash | sign | challenge => cases ch <;> cases h <;> rfl
  | _ => exact ho.elim

/-- The operations that do not touch the database. -/
def Quiet : Op → Prop
  | .sql _ => False
  | .update _ _ => False
  | _ => True

theorem answer_quiet {o : Op} {r : o.Reply} (ho : Quiet o)
    (h : answer c me o ch w = some (w', r)) : w'.db = w.db := by
  cases o with
  | sql | update => exact ho.elim
  | retrieve id =>
      rw [(answer_retrieve h).1]
  | reg_set k s | reg_delete k | auth_set k s | auth_delete k =>
      rcases doneOr_iff.mp h with ⟨-, heq⟩ | ⟨-, heq⟩ <;> cases heq <;> rfl
  | tokens_insert k e | tokens_remove k | links_insert k e | links_remove k =>
      obtain ⟨-, heq⟩ := done_iff.mp h
      cases heq
      rfl
  | _ => rw [answer_idle h trivial]

theorem answer_bcrypt_hash {password : String} {r : Op.Reply (.bcrypt_hash password)}
    (h : answer c me (.bcrypt_hash password) ch w = some (w', r)) :
    w' = w ∧ ((∃ salt, r = Except.ok (c.bcrypt_hash password salt)) ∨ r = Except.error .failed) := by
  cases ch <;> cases h
  · exact ⟨rfl, .inr rfl⟩
  · exact ⟨rfl, .inl ⟨_, rfl⟩⟩

theorem answer_now {r : Op.Reply .now} (h : answer c me .now ch w = some (w', r)) :
    ch = .time r ∧ w' = w := by
  cases ch <;> cases h
  exact ⟨rfl, rfl⟩

theorem answer_fill {n : Nat} {r : Op.Reply (.fill n)}
    (h : answer c me (.fill n) ch w = some (w', r)) : ch = .bytes r ∧ w' = w := by
  cases ch with
  | bytes bs =>
      obtain ⟨-, h⟩ := Option.ite_none_right_eq_some.mp h
      cases h
      exact ⟨rfl, rfl⟩
  | _ => cases h

theorem answer_tokens_insert {k : String} {e : FA2Entry} {r : Op.Reply (.tokens_insert k e)}
    (h : answer c me (.tokens_insert k e) ch w = some (w', r)) :
    w' = { w with tokens := Function.update w.tokens k (some e) } :=
  congrArg Prod.fst (done_iff.mp h).2

theorem answer_links_insert {k : String} {e : FA2Entry} {r : Op.Reply (.links_insert k e)}
    (h : answer c me (.links_insert k e) ch w = some (w', r)) :
    w' = { w with links := Function.update w.links k (some e) } :=
  congrArg Prod.fst (done_iff.mp h).2

theorem answer_tokens_remove {k : String} {r : Op.Reply (.tokens_remove k)}
    (h : answer c me (.tokens_remove k) ch w = some (w', r)) :
    w' = { w with tokens := Function.update w.tokens k none } ∧ r = w.tokens k :=
  Prod.mk.inj (done_iff.mp h).2

theorem answer_links_remove {k : String} {r : Op.Reply (.links_remove k)}
    (h : answer c me (.links_remove k) ch w = some (w', r)) :
    w' = { w with links := Function.update w.links k none } ∧ r = w.links k :=
  Prod.mk.inj (done_iff.mp h).2

end Answers

end World

/-- What happens to the caches without any request: their entries expire or are evicted. -/
inductive Expiry where
  | token (key : String)
  | link (key : String)
  | user (id : Uuid)
  | reg_state (key : String)
  | auth_state (key : String)
  deriving DecidableEq

def World.expire (e : Expiry) (w : World) : World :=
  match e with
  | .token k => { w with tokens := Function.update w.tokens k none }
  | .link k => { w with links := Function.update w.links k none }
  | .user id => { w with user_cache := Function.update w.user_cache id none }
  | .reg_state k => { w with reg_store := Function.update w.reg_store k none }
  | .auth_state k => { w with auth_store := Function.update w.auth_store k none }

/-- Expiring entries does not touch the database. -/
@[simp] theorem World.expire_db (e : Expiry) (w : World) : (w.expire e).db = w.db := by
  cases e <;> rfl

/-! ### Programs of the service -/

/-- A handler: it always ends in a value. -/
abbrev Handler (α : Type) : Type := Prog Op Op.Reply α

/-- A service function: it ends in a value or an error. -/
abbrev Service (ε α : Type) : Type := ExceptT ε (Prog Op Op.Reply) α

/-- Ask for one operation. -/
def ask (o : Op) : Handler o.Reply := Prog.op o

/-- An operation whose failure is turned into an error of the service. -/
def attempt {ε ε' α : Type} (err : ε' → ε) (p : Handler (Except ε' α)) : Service ε α :=
  ExceptT.mk do
    match ← p with
    | .ok a => return .ok a
    | .error e => return .error (err e)

section Statements

variable {α : Type} (T : Relation α)

/-- The rows a statement on the table returned. -/
def Relation.decode : Except DbError (List Record) → Except DbError (List α)
  | .ok rows => .ok (rows.filterMap T.prj)
  | .error e => .error e

/-- The row an `INSERT` returned. -/
def Relation.decodeOne : Except DbError Record → Except DbError α
  | .ok row =>
      match T.prj row with
      | some a => .ok a
      | none => .error .other
  | .error e => .error e

/-- `SELECT .. FROM T WHERE p`. -/
def select_from (p : α → Bool) : Handler (Except DbError (List α)) := do
  let r ← ask (.sql (.select (T.sel p)))
  return T.decode r

/-- `UPDATE T SET f WHERE p RETURNING *`. -/
def update_set (ex : Executor) (p : α → Bool) (f : α → α) : Handler (Except DbError (List α)) := do
  let r ← ask (.sql (.write ex (T.sel p) (T.set f)))
  return T.decode r

/-- `DELETE FROM T WHERE p`. -/
def delete_from (ex : Executor) (p : α → Bool) : Handler (Except DbError (List α)) := do
  let r ← ask (.sql (.write ex (T.sel p) Relation.del))
  return T.decode r

/-- `INSERT INTO T .. RETURNING *`, with a generated key where the table has one. -/
def insert_into (ex : Executor) (mk : Uuid → α) : Handler (Except DbError α) := do
  let r ← ask (.sql (.insert ex (fun n => T.inj (mk n)) T.clashes))
  return T.decodeOne r

/-- `pool.begin()`. -/
def begin_tx : Handler (Except DbError Unit) := ask (.sql .begin)

/-- `tx.commit()`. -/
def commit_tx : Handler (Except DbError Unit) := ask (.sql .commit)

/-- The rest of a function that holds a transaction: when it returns, the transaction is
dropped, and with it whatever was not committed. -/
def in_tx {ε β : Type} (body : Service ε β) : Service ε β :=
  ExceptT.mk do
    let r ← body.run
    let _ ← ask (.sql .rollback)
    return r

end Statements

end Authnz
