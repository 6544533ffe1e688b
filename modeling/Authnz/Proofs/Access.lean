/-
Logins, `/me/jwt` and password rotations, statement by statement.

A login reads the account in one statement and inserts the session in another; the
JWT endpoint asks the middleware for the session and inserts the token later; a
rotation commits the new hash, lists the sessions, deletes them one by one and then
revokes the refresh tokens.  This module tells the five handlers in phases, so that
what may come in between can be told from the phases alone.
-/
import Authnz.Proofs.Exchanges

namespace Authnz

open Basis

/-- The requests by which credentials come about and passwords are changed. -/
inductive AccessCall where
  | login (req : LoginRequest) (params : SessionParams)
  | username_login (req : LoginRequest) (params : SessionParams)
  | jwt (cookie : String)
  | change_password (cookie : String) (req : ChangePasswordRequest) (params : SessionParams)
  | confirm_password_reset (payload : PasswordResetConfirmRequest)
  deriving DecidableEq

def AccessCall.code (jwt_svc : JwtService) : AccessCall → Handler HttpResponse
  | .login req params => handlers.login jwt_svc.crates req params
  | .username_login req params => handlers.username_login jwt_svc.crates req params
  | .jwt cookie => session_middleware cookie fun id => handlers.jwt jwt_svc id
  | .change_password cookie req params =>
      session_middleware cookie fun id => handlers.change_password jwt_svc.crates id req params
  | .confirm_password_reset payload => handlers.confirm_password_reset jwt_svc.crates payload

/-- Any number of these at once. -/
abbrev accessing (jwt_svc : JwtService) :
    System Op Op.Reply Choice World AccessCall Expiry HttpResponse :=
  service jwt_svc.crates (AccessCall.code jwt_svc)

abbrev AccessConfig : Type := Config Op Op.Reply World AccessCall HttpResponse

namespace AccessCall

/-- The account a login asks for. -/
def finds : AccessCall → Option (User → Bool)
  | .login req _ => some fun u => u.email == req.identifier
  | .username_login req _ => some fun u => u.username == req.identifier
  | _ => none

/-- The password a login presents. -/
def password : AccessCall → Option String
  | .login req _ => some req.password
  | .username_login req _ => some req.password
  | _ => none

/-- The call is a password change by its user, who is left with a new session. -/
def changes : AccessCall → Bool
  | .change_password _ _ _ => true
  | _ => false

end AccessCall

/-! ### The calls, in phases -/

def SessionIs (id : Uuid) : Session → Bool := fun s => s.id == id

def TokenOf (user_id : Uuid) : RefreshToken → Bool := fun t => t.user_id == user_id

inductive AccessPhase where
  | start
  | closed
  /-- The database has failed. -/
  | failed
  /-- An INSERT has been refused. -/
  | refused
  /-- A login has been let in with the hash in this row. -/
  | entered (y : User)
  | logged_in (y : User)
  | admitted
  /-- The JWT endpoint has been given this identity. -/
  | accepted (id : Identity)
  | put (id : Identity)
  | issued
  /-- A reset: its transaction is open. -/
  | opened
  | spending (is : List Nat) (acc : List (Nat × Record))
  /-- A change of this user's password. -/
  | identified (u : Uuid)
  | hashed (u : Uuid) (hash : String) (spent : List (Nat × Record))
  | updating (u : Uuid) (hash : String) (spent : List (Nat × Record)) (is : List Nat)
      (acc : List (Nat × Record))
  /-- The new hash is committed. -/
  | rotated (u : Uuid) (hash : String)
  /-- The sessions `todo` are to be deleted. -/
  | sweeping (u : Uuid) (hash : String) (todo : List Session)
  | taking (u : Uuid) (hash : String) (x : Session) (todo : List Session) (is : List Nat)
      (acc : List (Nat × Record))
  /-- A change: the session it leaves its caller with. -/
  | renewing (u : Uuid) (hash : String) (user : UserResponse)
  | renewed (u : Uuid) (hash : String)
  | settled (u : Uuid) (hash : String)
  /-- It leaves its caller with none, and the refresh tokens as they are. -/
  | halted (u : Uuid) (hash : String)
  | marking (u : Uuid) (hash : String) (is : List Nat) (acc : List (Nat × Record))
  | done (u : Uuid) (hash : String)

/-- Where a login goes from the rows it has read. -/
def AccessCall.entry (c : Crates) (call : AccessCall) (rows : List Record) : AccessPhase :=
  match call.password, rows.filterMap users.prj with
  | some password, y :: _ =>
      if c.bcrypt_verify password y.password_hash = some true then .entered y else .closed
  | _, _ => .closed

/-- The INSERT of a session. -/
def put_session (new : NewSession) : Op :=
  .sql (.insert .tx (fun n => .session (new.withId n)) sessions.clashes)

/-- The DELETE of a session reaches row `i`. -/
def take_session (id : Uuid) (i : Nat) : Op :=
  .sql (.visit i (sessions.sel (SessionIs id)) Relation.del)

/-- What is answered only when the database fails. -/
inductive Fault : (o : Op) → o.Reply → Prop
  | begin {e : DbError} : Fault (.sql .begin) (Except.error e)
  | select {p : Record → Bool} {e : DbError} : Fault (.sql (.select p)) (Except.error e)
  | scan {p : Record → Bool} {e : DbError} : Fault (.sql (.scan p)) (Except.error e)
  | visit {i : Nat} {p : Record → Bool} {f : Record → Option Record} {e : DbError} :
      Fault (.sql (.visit i p f)) (Except.error e)
  | commit {e : DbError} : Fault (.sql .commit) (Except.error e)
  | list {sub : Option Uuid} {e : ApiError} : Fault (.list_sessions sub) (Except.error e)

inductive AccessStep (c : Crates) :
    AccessCall → AccessPhase → (o : Op) → o.Reply → AccessPhase → Prop
  | fault {call : AccessCall} {ph ph' : AccessPhase} {o : Op} {r : o.Reply} (h : Fault o r) :
      AccessStep c call ph o r ph'
  | lost {call : AccessCall} {ph' : AccessPhase} {o : Op} {r : o.Reply} :
      AccessStep c call .failed o r ph'
  | read {call : AccessCall} {q : User → Bool} {rows : List Record} (hq : call.finds = some q) :
      AccessStep c call .start (.sql (.select (users.sel q))) (Except.ok rows) (call.entry c rows)
  | clock {call : AccessCall} {y : User} {now : Time} :
      AccessStep c call (.entered y) .now now (.entered y)
  | log_in {call : AccessCall} {y : User} {new : NewSession} {row : Record}
      (hsub : new.sub = y.id) :
      AccessStep c call (.entered y) (put_session new) (Except.ok row) (.logged_in y)
  | log_in_refused {call : AccessCall} {y : User} {new : NewSession} {e : DbError} :
      AccessStep c call (.entered y) (put_session new) (Except.error e) .refused
  | enter {call : AccessCall} {y : User} :
      AccessStep c call (.logged_in y) (.sql .commit) (Except.ok ()) .admitted
  | drop {call : AccessCall} : AccessStep c call .refused (.sql .rollback) () .closed
  | turn_away {call : AccessCall} {cookie : String} :
      AccessStep c call .start (.authenticate cookie) (none : Option Identity) .closed
  | accept {cookie : String} {id : Identity} :
      AccessStep c (.jwt cookie) .start (.authenticate cookie) (some id : Option Identity)
        (.accepted id)
  | sign {call : AccessCall} {id : Identity} {aud : List String} {token : String} :
      AccessStep c call (.accepted id) (.sign id.sub aud) (Except.ok token) (.accepted id)
  | sign_fails {call : AccessCall} {id : Identity} {aud : List String} {e : String} :
      AccessStep c call (.accepted id) (.sign id.sub aud) (Except.error e) .closed
  | draw {call : AccessCall} {id : Identity} {bytes : List UInt8} :
      AccessStep c call (.accepted id) (.fill 32) bytes (.accepted id)
  | tick {call : AccessCall} {id : Identity} {now : Time} :
      AccessStep c call (.accepted id) .now now (.accepted id)
  | put {call : AccessCall} {id : Identity} {hash : String} {expires_at created_at : Time}
      {row : Record} :
      AccessStep c call (.accepted id) (put_token (id.sub, "session") hash expires_at created_at)
        (Except.ok row) (.put id)
  | put_refused {call : AccessCall} {id : Identity} {hash : String} {expires_at created_at : Time}
      {e : DbError} :
      AccessStep c call (.accepted id) (put_token (id.sub, "session") hash expires_at created_at)
        (Except.error e) .refused
  | issue {call : AccessCall} {id : Identity} :
      AccessStep c call (.put id) (.sql .commit) (Except.ok ()) .issued
  | identify {cookie : String} {req : ChangePasswordRequest} {params : SessionParams}
      {id : Identity} :
      AccessStep c (.change_password cookie req params) .start (.authenticate cookie)
        (some id : Option Identity) (.identified id.sub)
  | look {call : AccessCall} {u : Uuid} {rows : List Record} :
      AccessStep c call (.identified u) (.sql (.select (users.sel (UserIs u)))) (Except.ok rows)
        (.identified u)
  | hash {call : AccessCall} {u : Uuid} {password hash : String} :
      AccessStep c call (.identified u) (.bcrypt_hash password) (Except.ok hash) (.hashed u hash [])
  | hash_fails {call : AccessCall} {u : Uuid} {password : String} {e : Failed} :
      AccessStep c call (.identified u) (.bcrypt_hash password) (Except.error e) .closed
  | date {payload : PasswordResetConfirmRequest} {now : Time} :
      AccessStep c (.confirm_password_reset payload) .start .now now .start
  | begin {payload : PasswordResetConfirmRequest} :
      AccessStep c (.confirm_password_reset payload) .start (.sql .begin) (Except.ok ()) .opened
  | scan_resets {call : AccessCall} {q : PasswordReset → Bool} {is : List Nat} :
      AccessStep c call .opened (.sql (.scan (password_resets.sel q))) (Except.ok is)
        (.spending is [])
  | spend {call : AccessCall} {q : PasswordReset → Bool} {i : Nat} {is : List Nat}
      {acc : List (Nat × Record)} {rows : List Record} :
      AccessStep c call (.spending (i :: is) acc)
        (.sql (.visit i (password_resets.sel q) (password_resets.set (·.spent)))) (Except.ok rows)
        (.spending is (acc ++ rows.map fun x => (i, x)))
  | hash_reset {call : AccessCall} {acc : List (Nat × Record)} {u : Uuid}
      {password hash : String} :
      AccessStep c call (.spending [] acc) (.bcrypt_hash password) (Except.ok hash)
        (.hashed u hash acc)
  | hash_reset_fails {call : AccessCall} {acc : List (Nat × Record)} {password : String}
      {e : Failed} :
      AccessStep c call (.spending [] acc) (.bcrypt_hash password) (Except.error e)
        (.spending [] acc)
  | give_back {call : AccessCall} {acc : List (Nat × Record)} :
      AccessStep c call (.spending [] acc) (.sql .rollback) () .closed
  | scan_user {call : AccessCall} {u : Uuid} {hash : String} {spent : List (Nat × Record)}
      {is : List Nat} :
      AccessStep c call (.hashed u hash spent) (.sql (.scan (users.sel (UserIs u))))
        (Except.ok is) (.updating u hash spent is [])
  | update {call : AccessCall} {u : Uuid} {hash : String} {spent : List (Nat × Record)} {i : Nat}
      {is : List Nat} {acc : List (Nat × Record)} {rows : List Record} {f : User → User}
      (hf : ∀ y, (f y).id = y.id ∧ (f y).password_hash = hash) :
      AccessStep c call (.updating u hash spent (i :: is) acc)
        (.sql (.visit i (users.sel (UserIs u)) (users.set f))) (Except.ok rows)
        (.updating u hash spent is (acc ++ rows.map fun x => (i, x)))
  | rotate {call : AccessCall} {u : Uuid} {hash : String} {spent acc : List (Nat × Record)} :
      AccessStep c call (.updating u hash spent [] acc) (.sql .commit) (Except.ok ())
        (.rotated u hash)
  | drop_rotated {call : AccessCall} {u : Uuid} {hash : String} :
      AccessStep c call (.rotated u hash) (.sql .rollback) () (.rotated u hash)
  | list {call : AccessCall} {u : Uuid} {hash : String} {listed : List Session} :
      AccessStep c call (.rotated u hash) (.list_sessions (some u)) (Except.ok listed)
        (.sweeping u hash listed)
  | scan_session {call : AccessCall} {u : Uuid} {hash : String} {x : Session}
      {todo : List Session} {is : List Nat} :
      AccessStep c call (.sweeping u hash (x :: todo))
        (.sql (.scan (sessions.sel (SessionIs x.id)))) (Except.ok is)
        (.taking u hash x todo is [])
  | take {call : AccessCall} {u : Uuid} {hash : String} {x : Session} {todo : List Session}
      {i : Nat} {is : List Nat} {acc : List (Nat × Record)} {rows : List Record} :
      AccessStep c call (.taking u hash x todo (i :: is) acc) (take_session x.id i)
        (Except.ok rows) (.taking u hash x todo is (acc ++ rows.map fun x => (i, x)))
  | evict {call : AccessCall} {u : Uuid} {hash : String} {x : Session} {todo : List Session}
      {acc : List (Nat × Record)} :
      AccessStep c call (.taking u hash x todo [] acc) (.sql .commit) (Except.ok ())
        (.sweeping u hash todo)
  | owner {cookie : String} {req : ChangePasswordRequest} {params : SessionParams} {u : Uuid}
      {hash : String} {user : UserResponse} :
      AccessStep c (.change_password cookie req params) (.sweeping u hash []) (.retrieve u)
        (Except.ok user) (.renewing u hash user)
  | owner_fails {call : AccessCall} {u : Uuid} {hash : String} {e : ApiError} :
      AccessStep c call (.sweeping u hash []) (.retrieve u) (Except.error e) (.halted u hash)
  | renewal_clock {call : AccessCall} {u : Uuid} {hash : String} {user : UserResponse}
      {now : Time} :
      AccessStep c call (.renewing u hash user) .now now (.renewing u hash user)
  | renew {call : AccessCall} {u : Uuid} {hash : String} {user : UserResponse}
      {new : NewSession} {row : Record} (hsub : new.sub = user.id) :
      AccessStep c call (.renewing u hash user) (put_session new) (Except.ok row)
        (.renewed u hash)
  | renew_refused {call : AccessCall} {u : Uuid} {hash : String} {user : UserResponse}
      {new : NewSession} {e : DbError} :
      AccessStep c call (.renewing u hash user) (put_session new) (Except.error e)
        (.halted u hash)
  | drop_halted {call : AccessCall} {u : Uuid} {hash : String} :
      AccessStep c call (.halted u hash) (.sql .rollback) () (.halted u hash)
  | settle {call : AccessCall} {u : Uuid} {hash : String} :
      AccessStep c call (.renewed u hash) (.sql .commit) (Except.ok ()) (.settled u hash)
  | scan_tokens {call : AccessCall} {ph : AccessPhase} {u : Uuid} {hash : String} {is : List Nat}
      (hph : ph = .sweeping u hash [] ∨ ph = .settled u hash) :
      AccessStep c call ph (.sql (.scan (refresh_tokens.sel (TokenOf u)))) (Except.ok is)
        (.marking u hash is [])
  | mark {call : AccessCall} {u : Uuid} {hash : String} {i : Nat} {is : List Nat}
      {acc : List (Nat × Record)} {rows : List Record} :
      AccessStep c call (.marking u hash (i :: is) acc) (mark_token (TokenOf u) i)
        (Except.ok rows) (.marking u hash is (acc ++ rows.map fun x => (i, x)))
  | finish {call : AccessCall} {u : Uuid} {hash : String} {acc : List (Nat × Record)} :
      AccessStep c call (.marking u hash [] acc) (.sql .commit) (Except.ok ()) (.done u hash)

/-- The call has replaced the user's password hash by this one. -/
def AccessPhase.Since (u : Uuid) (hash : String) : AccessPhase → Prop
  | .rotated v h | .sweeping v h _ | .taking v h _ _ _ _ | .renewing v h _ | .renewed v h
  | .settled v h | .halted v h | .marking v h _ _ | .done v h => v = u ∧ h = hash
  | _ => False

/-- A call that has been let in goes on to its credential. -/
def AccessPhase.MayEnd : AccessPhase → Prop
  | .entered _ | .logged_in _ | .accepted _ | .put _ => False
  | _ => True

/-- The five handlers, as a protocol. -/
abbrev granting (c : Crates) : Protocol Op Op.Reply AccessCall HttpResponse where
  Phase := AccessPhase
  start _ := .start
  Step := AccessStep c
  Final _ ph resp := ph.MayEnd ∧
    (resp.status = 200 → ∀ u hash, ph.Since u hash → ph = .done u hash)

theorem Fault.part {o : Op} {r : o.Reply} (h : Fault o r) : World.Part o := by
  cases h with
  | list => exact .quiet trivial
  | _ => exact .sql (by constructor)

theorem AccessStep.part {c : Crates} {call : AccessCall} {ph ph' : AccessPhase} {o : Op}
    {r : o.Reply} (h : AccessStep c call ph o r ph') (hph : ph ≠ .failed) : World.Part o := by
  cases h with
  | fault h => exact h.part
  | lost => exact absurd rfl hph
  | _ => first
    | exact .quiet trivial
    | exact .sql (by constructor)

theorem AccessStep.fails {c : Crates} {call : AccessCall} {ph : AccessPhase} {o : Op} {r : o.Reply}
    (h : Fault o r) : AccessStep c call ph o r .failed := .fault h

/-! ### The handlers keep to it -/

section Walks

variable {c : Crates} {call : AccessCall} {β ε : Type}

theorem walks_failed (p : Prog Op Op.Reply β) :
    (granting c).Walks call p .failed fun ph _ => ph = .failed := by
  induction p with
  | ret b => rfl
  | ask o k ih => exact fun r => ⟨.failed, .lost, ih r⟩

/-- Once the database has failed, the calls are not followed any further. -/
theorem goes_failed {p : Handler β} {Q : AccessPhase → β → Prop} (hQ : ∀ b, Q .failed b) :
    Goes (granting c) call p .failed Q := by
  refine Protocol.walks_mono (walks_failed _) ?_
  intro ph b hph
  subst hph
  exact hQ b

/-- The INSERT of a session, up to its COMMIT. -/
theorem issue_session_walks {user : SessionUser} {params : SessionParams}
    {ph put done bad last : AccessPhase} (hclock : ∀ now, AccessStep c call ph .now now ph)
    (hput : ∀ (new : NewSession) row, new.sub = user.sub →
      AccessStep c call ph (put_session new) (Except.ok row) put)
    (hrefused : ∀ (new : NewSession) e,
      AccessStep c call ph (put_session new) (Except.error e) bad)
    (hdrop : AccessStep c call bad (.sql .rollback) () last)
    (hcommit : AccessStep c call put (.sql .commit) (Except.ok ()) done) :
    GoesE (granting c) call (SessionService.issue_session user params) ph
      (fun ph' _ => ph' = done) fun ph' _ => ph' = done ∨ ph' = last := by
  unfold SessionService.issue_session
  refine goesE_bind (goesE_lift (goes_ask ?_))
  intro now
  refine ⟨_, hclock now, goesE_bind ?_⟩
  exact goesE_insert_pool (fun row => hput _ row rfl) (fun e => hrefused _ e) (fun _ => hcommit)
    (fun _ e => .fault .commit) hdrop (fun _ _ _ => goesE_ret rfl) (fun _ _ => .inl rfl)
    fun e => .inr rfl

/-- The two lookups of a login, by their clause, and the check of the password. -/
theorem login_walks {q : User → Bool} {password : String} (hq : call.finds = some q)
    (hpassword : call.password = some password) :
    GoesE (granting c) call (do
        let user ← lookup q
        match c.bcrypt_verify password user.password_hash with
        | some true => return user
        | some false => throw .InvalidCredentials
        | none => throw .Bcrypt) .start
      (fun ph y => ph = .entered y) fun ph _ => ph.MayEnd := by
  refine goesE_bind (goesE_bind (goesE_select (fun rows => .read hq) (fun e => .fails .select)
    (fun rows => ?_) fun e => trivial))
  cases hrows : rows.filterMap users.prj with
  | nil =>
      refine goesE_throw ?_
      simp only [AccessCall.entry, hpassword, hrows]
      trivial
  | cons y ys =>
      refine goesE_ret ?_
      rcases hverify : c.bcrypt_verify password y.password_hash with _ | _ | _
      all_goals simp only [AccessCall.entry, hpassword, hrows, hverify]
      · exact goesE_throw trivial
      · exact goesE_throw trivial
      · exact goesE_ret (by simp)

/-- What both login endpoints do with the account they have let in. -/
theorem start_session_walks (y : User) (params : SessionParams) :
    Goes (granting c) call (handlers.start_session c y params) (.entered y)
      ((granting c).Final call) := by
  unfold handlers.start_session SessionUser.new
  refine goes_bind (goes_bind (goes_ask ?_))
  intro now
  refine ⟨_, .clock, goes_ret (goes_run (goesE_mono
    (issue_session_walks (fun _ => .clock) (fun _ _ h => .log_in h) (fun _ _ => .log_in_refused)
      .drop .enter) (fun ph id h => ?_) fun ph e h => ?_))⟩
  · subst h
    exact goes_ret ⟨trivial, fun _ _ _ h => h.elim⟩
  · rcases h with rfl | rfl <;> exact goes_ret ⟨trivial, fun _ _ _ h => h.elim⟩

theorem login_follows (jwt_svc : JwtService) (req : LoginRequest) (params : SessionParams) :
    (granting jwt_svc.crates).Follows (.login req params)
      ((accessing jwt_svc).code (.login req params)) := by
  refine goes_run ?_
  unfold UserService.password_login
  by_cases hempty : (req.identifier.isEmpty || req.password.isEmpty) = true
  · simp only [hempty, if_true]
    exact goesE_throw (goes_ret ⟨trivial, fun _ _ _ h => h.elim⟩)
  · simp only [hempty]
    refine goesE_mono (login_walks (q := fun u => u.email == req.identifier) rfl rfl)
      (fun ph y h => ?_) fun ph e h => goes_ret ⟨h, fun hok => absurd hok (auth_error_status e)⟩
    subst h
    exact start_session_walks y params

theorem username_login_follows (jwt_svc : JwtService) (req : LoginRequest)
    (params : SessionParams) :
    (granting jwt_svc.crates).Follows (.username_login req params)
      ((accessing jwt_svc).code (.username_login req params)) := by
  refine goes_run ?_
  unfold UserService.username_login
  by_cases hempty : (req.identifier.isEmpty || req.password.isEmpty) = true
  · simp only [hempty, if_true]
    exact goesE_throw (goes_ret ⟨trivial, fun _ _ _ h => h.elim⟩)
  · simp only [hempty]
    refine goesE_mono (login_walks (q := fun u => u.username == req.identifier) rfl rfl)
      (fun ph y h => ?_) fun ph e h => goes_ret ⟨h, fun hok => absurd hok (auth_error_status e)⟩
    subst h
    exact start_session_walks y params

theorem jwt_follows (jwt_svc : JwtService) (cookie : String) :
    (granting jwt_svc.crates).Follows (.jwt cookie) ((accessing jwt_svc).code (.jwt cookie)) := by
  refine goes_bind (goes_ask ?_)
  intro session
  cases session with
  | none => exact ⟨_, .turn_away, goes_ret ⟨trivial, fun _ _ _ h => h.elim⟩⟩
  | some id =>
      refine ⟨_, .accept, goes_run ?_⟩
      unfold JwtService.issue_token_pair JwtService.issue_token_pair_with
      refine goesE_bind (goesE_attempt (goes_ask ?_))
      intro r
      cases r with
      | error e => exact ⟨_, .sign_fails, goes_ret ⟨trivial, fun _ _ _ h => h.elim⟩⟩
      | ok token =>
          refine ⟨_, .sign, goesE_bind (goesE_lift (goes_bind (goes_ask ?_)))⟩
          intro bytes
          refine ⟨_, .draw, goes_ret (goesE_bind (goesE_lift (goes_ask ?_)))⟩
          intro now
          refine ⟨_, .tick, goesE_bind (goesE_lift (goes_ask ?_))⟩
          intro now'
          refine ⟨_, .tick, goesE_bind ?_⟩
          refine goesE_insert_pool (fun row => .put) (fun e => .put_refused) (fun row => .issue)
            (fun row e => .fault .commit) .drop (fun row a _ => ?_) (fun row _ => ?_) fun e => ?_
          · exact goesE_ret (goes_ret ⟨trivial, fun _ _ _ h => h.elim⟩)
          · exact goes_ret ⟨trivial, fun _ _ _ h => h.elim⟩
          · exact goes_ret ⟨trivial, fun _ _ _ h => h.elim⟩

/-! ### Rotations -/

theorem delete_walks_session {u : Uuid} {hash : String} (x : Session) (todo : List Session) :
    GoesE (granting c) call (SessionRepo.delete x.id) (.sweeping u hash (x :: todo))
      (fun ph _ => ph = .sweeping u hash todo)
      fun ph _ => ph = .sweeping u hash todo ∨ ph = .failed := by
  unfold SessionRepo.delete
  refine goesE_bind (goesE_write_pool (.taking u hash x todo) (fun is => .scan_session)
    (fun e => .fails .scan) (fun i is acc rows => .take) (fun i is acc e => .fails .visit)
    (fun acc => .evict) (fun acc e => .fails .commit) .lost (fun acc => ?_) fun e => .inr rfl)
  split
  · exact goesE_ret rfl
  · exact goesE_throw (.inl rfl)

theorem delete_each_walks {u : Uuid} {hash : String} (todo : List Session) :
    Goes (granting c) call (SessionService.delete_each todo) (.sweeping u hash todo)
      fun ph _ => ph = .sweeping u hash [] ∨ ph = .failed := by
  induction todo with
  | nil => exact goes_ret (.inl rfl)
  | cons x todo ih =>
      refine goes_run (goesE_mono (delete_walks_session x todo) (fun ph _ h => ?_) fun ph e h => ?_)
      · subst h
        exact ih
      · rcases h with rfl | rfl
        · exact ih
        · exact goes_failed fun _ => .inr rfl

theorem revoke_sessions_walks {u : Uuid} {hash : String} :
    GoesE (granting c) call (SessionService.revoke_all_for_user u) (.rotated u hash)
      (fun ph _ => ph = .sweeping u hash [] ∨ ph = .failed) fun ph _ => ph = .failed := by
  unfold SessionService.revoke_all_for_user SessionRepo.list
  refine goesE_bind (goesE_attempt (goes_ask ?_))
  intro r
  cases r with
  | error e => exact ⟨_, .fails .list, rfl⟩
  | ok listed => exact ⟨_, .list, goesE_lift (delete_each_walks listed)⟩

theorem revoke_tokens_walks {u : Uuid} {hash : String} {ph : AccessPhase}
    (hph : ph = .sweeping u hash [] ∨ ph = .settled u hash) :
    GoesE (granting c) call (JwtService.revoke_all_user_tokens u) ph
      (fun ph' _ => ph' = .done u hash) fun ph' _ => ph' = .failed := by
  unfold JwtService.revoke_all_user_tokens
  exact goesE_bind (goesE_write_pool (.marking u hash) (fun is => .scan_tokens hph)
    (fun e => .fails .scan) (fun i is acc rows => .mark) (fun i is acc e => .fails .visit)
    (fun acc => .finish) (fun acc e => .fails .commit) .lost (fun acc => goesE_ret rfl)
    fun e => rfl)

theorem change_password_walks (cmd : ChangePasswordCmd) :
    GoesE (granting c) call (UserService.change_password c cmd) (.identified cmd.user_id)
      (fun ph _ => ∃ hash, ph = .rotated cmd.user_id hash) fun ph _ => ph.MayEnd := by
  unfold UserService.change_password
  by_cases hscore : c.zxcvbn_score cmd.new_password < 3
  · simp only [hscore, if_true]
    exact goesE_throw trivial
  simp only [hscore, if_false]
  refine goesE_bind (goesE_bind (goesE_select (fun rows => .look)
    (fun e => .fails .select) (fun rows => ?_) fun e => trivial))
  split
  · refine goesE_ret ?_
    split
    · exact goesE_throw trivial
    refine goesE_bind (goesE_attempt (goes_ask ?_))
    intro r
    cases r with
    | error e => exact ⟨_, .hash_fails, trivial⟩
    | ok hash =>
        refine ⟨_, .hash, ?_⟩
        exact goesE_bind (goesE_write_pool (.updating cmd.user_id hash [])
          (fun is => .scan_user) (fun e => .fails .scan) (fun i is acc rows => .update (by simp))
          (fun i is acc e => .fails .visit) (fun acc => .rotate) (fun acc e => .fails .commit) .lost
          (fun acc => goesE_ret ⟨hash, rfl⟩) fun e => trivial)
  · exact goesE_throw trivial

theorem confirm_password_reset_walks {payload : PasswordResetConfirmRequest}
    (cmd : ConfirmPasswordResetCmd) :
    GoesE (granting c) (.confirm_password_reset payload)
      (UserService.confirm_password_reset c cmd) .start
      (fun ph u => ∃ hash, ph = .rotated u hash) fun ph _ => ph.MayEnd := by
  unfold UserService.confirm_password_reset
  by_cases hscore : c.zxcvbn_score cmd.new_password < 3
  · simp only [hscore, if_true]
    exact goesE_throw trivial
  simp only [hscore, if_false]
  refine goesE_bind (goesE_lift (goes_ask ?_))
  intro now
  refine ⟨_, .date, goesE_bind (goesE_attempt (goes_ask ?_))⟩
  intro r
  cases r with
  | error e => exact ⟨_, .fails .begin, trivial⟩
  | ok _ =>
      refine ⟨_, .begin, goesE_in_tx (goesE_bind (goesE_write_tx .spending
        (fun is => .scan_resets) (fun e => .fails .scan) (fun i is acc rows => .spend)
        (fun i is acc e => .fails .visit) (fun acc => ?_) fun e => ⟨.closed, .lost, trivial⟩))⟩
      cases (acc.map Prod.snd).filterMap password_resets.prj with
      | nil => exact goesE_throw ⟨_, .give_back, trivial⟩
      | cons reset resets =>
          refine goesE_bind (goesE_attempt (goes_ask ?_))
          intro r
          cases r with
          | error e => exact ⟨_, .hash_reset_fails, _, .give_back, trivial⟩
          | ok hash =>
              refine ⟨_, .hash_reset, goesE_bind (goesE_write_tx
                (.updating reset.user_id hash acc) (fun is => .scan_user) (fun e => .fails .scan)
                (fun i is acc rows => .update (by simp)) (fun i is acc e => .fails .visit)
                (fun acc₂ => ?_) fun e => ⟨.closed, .lost, trivial⟩)⟩
              refine goesE_bind (goesE_attempt (goes_ask ?_))
              intro r
              cases r with
              | error e => exact ⟨_, .fails .commit, .closed, .lost, trivial⟩
              | ok _ => exact ⟨_, .rotate, goesE_ret ⟨_, .drop_rotated, hash, rfl⟩⟩

theorem confirm_password_reset_follows (jwt_svc : JwtService)
    (payload : PasswordResetConfirmRequest) :
    (granting jwt_svc.crates).Follows (.confirm_password_reset payload)
      ((accessing jwt_svc).code (.confirm_password_reset payload)) := by
  refine goes_run (goesE_mono (confirm_password_reset_walks _) (fun ph u h => ?_) fun ph e h => ?_)
  · obtain ⟨hash, rfl⟩ := h
    have hlost : ∀ {p : Handler HttpResponse}, Goes (granting jwt_svc.crates)
        (.confirm_password_reset payload) p .failed
        ((granting jwt_svc.crates).Final (.confirm_password_reset payload)) :=
      goes_failed fun _ => ⟨trivial, fun _ _ _ h => h.elim⟩
    -- failures of the two revocations are only logged
    refine goes_run (goesE_mono revoke_sessions_walks (fun ph _ h => ?_) fun ph e h => ?_)
    · rcases h with rfl | rfl
      · refine goes_run (goesE_mono (revoke_tokens_walks (.inl rfl)) (fun ph _ h => ?_)
          fun ph e h => ?_)
        · subst h
          exact goes_ret ⟨trivial, fun _ _ _ h => by rw [h.1, h.2]⟩
        · subst h
          exact hlost
      · exact hlost
    · subst h
      exact hlost
  · exact goes_ret ⟨h, fun hok => absurd hok (auth_error_status e)⟩

theorem change_password_follows (jwt_svc : JwtService) (cookie : String)
    (req : ChangePasswordRequest) (params : SessionParams) :
    (granting jwt_svc.crates).Follows (.change_password cookie req params)
      ((accessing jwt_svc).code (.change_password cookie req params)) := by
  refine goes_bind (goes_ask ?_)
  intro session
  cases session with
  | none => exact ⟨_, .turn_away, goes_ret ⟨trivial, fun _ _ _ h => h.elim⟩⟩
  | some id =>
      refine ⟨_, .identify, goes_run (goesE_mono (change_password_walks
        ⟨id.sub, req.current_password, req.new_password⟩) (fun ph _ h => ?_) fun ph e h => ?_)⟩
      · obtain ⟨hash, rfl⟩ := h
        have hlost : ∀ {p : Handler HttpResponse}, Goes (granting jwt_svc.crates)
            (.change_password cookie req params) p .failed
            ((granting jwt_svc.crates).Final (.change_password cookie req params)) :=
          goes_failed fun _ => ⟨trivial, fun _ _ _ h => h.elim⟩
        refine goes_run (goesE_mono revoke_sessions_walks (fun ph _ h => ?_) fun ph e h => ?_)
        · rcases h with rfl | rfl
          · refine goes_run (goesE_attempt (goes_ask ?_))
            intro r
            cases r with
            | error e => exact ⟨_, .owner_fails, goes_ret ⟨trivial, fun hok => by cases hok⟩⟩
            | ok user =>
                refine ⟨_, .owner, ?_⟩
                unfold SessionUser.new
                refine goes_bind (goes_bind (goes_ask ?_))
                intro now
                refine ⟨_, .renewal_clock, goes_ret (goes_run (goesE_mono (issue_session_walks
                  (fun _ => .renewal_clock) (fun _ _ h => .renew h) (fun _ _ => .renew_refused)
                  .drop_halted .settle) (fun ph sess_id h => ?_) fun ph e h => ?_))⟩
                · subst h
                  refine goes_run (goesE_mono (revoke_tokens_walks (.inr rfl)) (fun ph _ h => ?_)
                    fun ph e h => ?_)
                  · subst h
                    exact goes_ret ⟨trivial, fun _ _ _ h => by rw [h.1, h.2]⟩
                  · subst h
                    exact hlost
                · rcases h with rfl | rfl <;>
                    exact goes_ret ⟨trivial, fun hok => absurd hok (auth_error_status e)⟩
          · exact hlost
        · subst h
          exact hlost
      · exact goes_ret ⟨h, fun hok => absurd hok (auth_error_status e)⟩

end Walks

/-- **The five handlers keep to the protocol.** -/
theorem granting_follows (jwt_svc : JwtService) (call : AccessCall) :
    (granting jwt_svc.crates).Follows call ((accessing jwt_svc).code call) := by
  cases call with
  | login req params => exact login_follows jwt_svc req params
  | username_login req params => exact username_login_follows jwt_svc req params
  | jwt cookie => exact jwt_follows jwt_svc cookie
  | change_password cookie req params => exact change_password_follows jwt_svc cookie req params
  | confirm_password_reset payload => exact confirm_password_reset_follows jwt_svc payload

end Authnz
