/-
What a request is entitled to.

`MayAdd`, `MayMake`, `MayPut` and `MayAnswer` say, row by row and without a statement of
the code, what a call may write, put into a cache and answer on the replies it has had:
a session only for an account the call has had proof of, a new password hash only
after the old password or a reset token, and so on.  Every handler is walked once to
see that it asks for nothing else.  Nothing here depends on what the database or a
cache replies, so what is found holds between the statements of any other calls.
-/
import Authnz.Model.Service
import Authnz.Proofs.Policing

namespace Authnz

open Basis

/-! ### What is on record -/

section Evidence

variable {α : Type} (T : Relation α) (q : α → Bool) (log : Replies)

/-- A `SELECT` of these rows has returned this one. -/
def Found (a : α) : Prop :=
  ∃ rows, ⟨.sql (.select (T.sel q)), Except.ok rows⟩ ∈ log ∧ a ∈ rows.filterMap T.prj

/-- A `SELECT` of these rows has returned exactly these. -/
def Listed (l : List α) : Prop :=
  ∃ rows, ⟨.sql (.select (T.sel q)), Except.ok rows⟩ ∈ log ∧ l = rows.filterMap T.prj

/-- The session middleware has let the cookie in as this identity. -/
def Authenticated (cookie : String) (id : Identity) : Prop := ⟨.authenticate cookie, some id⟩ ∈ log

/-- The user repository has served this account for the id. -/
def Retrieved (id : Uuid) (r : UserResponse) : Prop := ⟨.retrieve id, Except.ok r⟩ ∈ log

/-- The session repository has shown this session for the id. -/
def Shown (id : Uuid) (s : Session) : Prop := ⟨.retrieve_session id, Except.ok s⟩ ∈ log

/-- The session repository has listed these for the user. -/
def Named (id : Uuid) (l : List Session) : Prop := ⟨.list_sessions (some id), Except.ok l⟩ ∈ log

/-- The call has drawn the link, the nonce and the token of this challenge, one after the other. -/
def Drew (e : FA2Entry) : Prop :=
  ∃ link nonce, [⟨.random_range 100000 999999, e.token⟩, ⟨.fill 32, nonce⟩, ⟨.fill 32, link⟩] <:+:
    log ∧ e.link = base64url link ∧ e.nonce = base64url nonce

/-- The call has drawn this challenge for the account and put it into both caches. -/
structure HasReleased (u : User) (e : FA2Entry) : Prop where
  drew : Drew log e
  token : ⟨.tokens_insert e.nonce e, ()⟩ ∈ log
  link : ⟨.links_insert e.link e, ()⟩ ∈ log
  email : e.email = u.id

/-- The clock has shown this. -/
def Told (now : Time) : Prop := ⟨.now, now⟩ ∈ log

/-- The password has been hashed to this. -/
def HashedTo (password hash : String) : Prop := ⟨.bcrypt_hash password, Except.ok hash⟩ ∈ log

/-- A reset that could be redeemed has been marked as used. -/
def SpentReset (hash : String) (now : Time) (p : PasswordReset) : Prop :=
  Visited (password_resets.sel (Redeemable hash now)) (password_resets.set PasswordReset.spent) log
    (.password_reset p)

/-- A change has been committed. -/
def HasCommitted : Prop := ⟨.sql .commit, Except.ok ()⟩ ∈ log

end Evidence

/-- The call has inserted the hash of this raw token for the user, and committed it. -/
def TokenRecorded (c : Crates) (log : Replies) (user_id : Uuid) (raw : String) : Prop :=
  ∃ (mk : Uuid → RefreshToken) (t : RefreshToken) (past : Replies), ⟨.sql .commit, Except.ok ()⟩ ::
    ⟨.sql (.insert .tx (fun n => refresh_tokens.inj (mk n)) refresh_tokens.clashes),
      Except.ok (.refresh_token t)⟩ :: past <:+ log ∧
    ∀ n, (mk n).user_id = user_id ∧ (mk n).token_hash = hash_token c raw

section Later

variable {α : Type} {T : Relation α} {q : α → Bool} {log log' : Replies}

theorem TokenRecorded.later {c : Crates} {user_id : Uuid} {raw : String}
    (h : TokenRecorded c log user_id raw) (hlater : log <:+ log') :
    TokenRecorded c log' user_id raw := by
  obtain ⟨mk, t, past, hsuf, hmk⟩ := h
  exact ⟨mk, t, past, hsuf.trans hlater, hmk⟩

theorem Found.later {a : α} (h : Found T q log a) (hlater : log <:+ log') : Found T q log' a :=
  let ⟨rows, hmem, ha⟩ := h
  ⟨rows, hlater.subset hmem, ha⟩

theorem Listed.later {l : List α} (h : Listed T q log l) (hlater : log <:+ log') :
    Listed T q log' l :=
  let ⟨rows, hmem, hl⟩ := h
  ⟨rows, hlater.subset hmem, hl⟩

theorem Listed.found {l : List α} (h : Listed T q log l) {a : α} (ha : a ∈ l) :
    Found T q log a := by
  obtain ⟨rows, hmem, rfl⟩ := h
  exact ⟨rows, hmem, ha⟩

theorem Drew.later {e : FA2Entry} (h : Drew log e) (hlater : log <:+ log') : Drew log' e :=
  let ⟨link, nonce, hmem, he⟩ := h
  ⟨link, nonce, hmem.trans hlater.isInfix, he⟩

theorem HasReleased.later {u : User} {e : FA2Entry} (h : HasReleased log u e) (hlater : log <:+ log') :
    HasReleased log' u e :=
  ⟨h.drew.later hlater, hlater.subset h.token, hlater.subset h.link, h.email⟩

end Later

section Mandates

variable {Reg Cred : Type} (jwt_svc : JwtService) (wa : Webauthn Reg Cred)

/-- The call has had proof that it acts for this account, and asks for a session from there. -/
inductive Vouched : ServiceCall Reg Cred → Replies → UserResponse → SessionParams → Prop
  | login {req params log u} (hfound : Found users (fun u => u.email == req.identifier) log u)
      (hverify : jwt_svc.crates.bcrypt_verify req.password u.password_hash = some true) :
      Vouched (.route (.login req params)) log (UserResponse.of u) params
  | username_login {req params log u}
      (hfound : Found users (fun u => u.username == req.identifier) log u)
      (hverify : jwt_svc.crates.bcrypt_verify req.password u.password_hash = some true) :
      Vouched (.route (.username_login req params)) log (UserResponse.of u) params
  | confirm {link params log r} {e : FA2Entry} (htaken : ⟨.links_remove link, some e⟩ ∈ log)
      (hr : Retrieved log e.email r) : Vouched (.route (.confirm link params)) log r params
  | confirm_token {token nonce params log r} {e : FA2Entry}
      (htaken : ⟨.tokens_remove nonce, some e⟩ ∈ log) (htoken : e.token = token)
      (hr : Retrieved log e.email r) :
      Vouched (.route (.confirm_token token nonce params)) log r params
  | passkey_login {username credential params log u} {timed : TimedAuthState}
      {result : AuthenticationResult}
      (hfound : Found users (fun u => u.username == trim username) log u)
      (hgot : ⟨.auth_get (trim username), Except.ok (some timed)⟩ ∈ log)
      (hfinish : wa.finish_passkey_authentication credential timed.state = .ok result) :
      Vouched (.route (.passkey_login_finish username credential params)) log (UserResponse.of u)
        params
  | change_password {cookie req params log id u r} (hauth : Authenticated log cookie id)
      (hfound : Found users (fun u => u.id == id.sub) log u)
      (hverify : jwt_svc.crates.bcrypt_verify req.current_password u.password_hash = some true)
      (hdone : HasCommitted log) (hr : Retrieved log id.sub r) :
      Vouched (.route (.change_password cookie req params)) log r params

/-- The call is rotating this user's password, and has committed the new one. -/
inductive RotatesFor : ServiceCall Reg Cred → Replies → Uuid → Prop
  | change_password {cookie req params log id u} (hauth : Authenticated log cookie id)
      (hfound : Found users (fun u => u.id == id.sub) log u)
      (hverify : jwt_svc.crates.bcrypt_verify req.current_password u.password_hash = some true)
      (hdone : HasCommitted log) :
      RotatesFor (.route (.change_password cookie req params)) log id.sub
  | confirm_password_reset {payload log now p}
      (hspent : SpentReset log (hash_token jwt_svc.crates payload.token) now p)
      (hdone : HasCommitted log) :
      RotatesFor (.route (.confirm_password_reset payload)) log p.user_id

/-- The call has taken a challenge for this user. -/
inductive Confirms : ServiceCall Reg Cred → Replies → Uuid → Prop
  | confirm {link params log} {e : FA2Entry} (htaken : ⟨.links_remove link, some e⟩ ∈ log) :
      Confirms (.route (.confirm link params)) log e.email
  | confirm_token {token nonce params log} {e : FA2Entry}
      (htaken : ⟨.tokens_remove nonce, some e⟩ ∈ log) (htoken : e.token = token) :
      Confirms (.route (.confirm_token token nonce params)) log e.email

/-- The call asks for a challenge for this account. -/
inductive Challenges : ServiceCall Reg Cred → Replies → User → Prop
  | challenge1 {email log u} (hfound : Found users (fun u => u.email == email) log u) :
      Challenges (.route (.challenge1 email)) log u
  | challenge2 {username log u} (hfound : Found users (fun u => u.username == username) log u) :
      Challenges (.route (.challenge2 username)) log u

/-- The rows a call may add. -/
inductive MayAdd : ServiceCall Reg Cred → Replies → Record → Prop
  | register {req log hash now id} (hvalid : req.validate jwt_svc.crates = true)
      (hstrong : 3 ≤ jwt_svc.crates.zxcvbn_score req.password)
      (hhash : HashedTo log req.password hash) (hnow : Told log now) :
      MayAdd (.route (.register req)) log (.user
        { id, username := req.username, email := req.email, password_hash := hash,
          created_at := now, updated_at := now, email_confirmed := false })
  | session {call log r params now id} (hvouched : Vouched jwt_svc wa call log r params)
      (hnow : Told log now) :
      MayAdd call log (.session
        { id, sub := r.id, username := r.username, email := r.email,
          ip_address := params.ip_address, expires_at := now + hours 1 })
  | jwt {cookie log id raw now now'} (hauth : Authenticated log cookie id)
      (hraw : raw ∈ drawn_tokens log) (hnow : Told log now) (hnow' : Told log now') :
      MayAdd (.route (.jwt cookie)) log (.refresh_token
        { user_id := id.sub, token_hash := hash_token jwt_svc.crates raw, issuer := "session",
          expires_at := now + days REFRESH_TOKEN_EXPIRY_DAYS, revoked := some false,
          created_at := now' })
  | refresh {cmd log t r raw now now'}
      (hfound : Found refresh_tokens
        (fun t => t.token_hash == hash_token jwt_svc.crates (trim cmd.refresh_token)) log t)
      (hlive : t.revoked = some false) (hr : Retrieved log t.user_id r)
      (hraw : raw ∈ drawn_tokens log) (hnow : Told log now) (hnow' : Told log now') :
      MayAdd (.route (.refresh cmd)) log (.refresh_token
        { user_id := r.id, token_hash := hash_token jwt_svc.crates raw, issuer := t.issuer,
          expires_at := now + days REFRESH_TOKEN_EXPIRY_DAYS, revoked := some false,
          created_at := now' })
  | reset {req log u raw now id} (hfound : Found users (fun u => u.email == req.email) log u)
      (hraw : raw ∈ drawn_tokens log) (hnow : Told log now) :
      MayAdd (.route (.request_password_reset req)) log (.password_reset
        { id, user_id := u.id, token_hash := hash_token jwt_svc.crates raw,
          expires_at := now + minutes 30, used := some false })
  | reset_event {req log u raw} (hfound : Found users (fun u => u.email == req.email) log u)
      (hraw : raw ∈ drawn_tokens log) :
      MayAdd (.route (.request_password_reset req)) log
        (.event (.password_reset_requested req.email raw))
  | challenge_event {call log u} {e : FA2Entry} (hcall : Challenges call log u)
      (hreleased : HasReleased log u e) :
      MayAdd call log (.event (.challenge_requested e.token e.link e.nonce))
  | passkey {cookie label credential log id passkey data now row} {timed : TimedRegState}
      (hauth : Authenticated log cookie id)
      (hgot : ⟨.reg_get (jwt_svc.crates.uuid_to_string id.sub), Except.ok (some timed)⟩ ∈ log)
      (hfinish : wa.finish_passkey_registration credential timed.state = .ok passkey)
      (hdata : wa.to_string passkey = some data) (hnow : Told log now) :
      MayAdd (.route (.passkey_register_finish cookie label credential)) log (.passkey_credential
        { id := row, user_id := id.sub, credential_id := credential_id_b64 passkey,
          passkey_data := data, label, created_at := now, last_used_at := none })

/-- What a call may make of a row. -/
inductive MayMake : ServiceCall Reg Cred → Replies → Record → Option Record → Prop
  | change_password {cookie req params log id z hash} {u : User}
      (hauth : Authenticated log cookie id) (hfound : Found users (fun u => u.id == id.sub) log z)
      (hverify : jwt_svc.crates.bcrypt_verify req.current_password z.password_hash = some true)
      (hstrong : 3 ≤ jwt_svc.crates.zxcvbn_score req.new_password)
      (hhash : HashedTo log req.new_password hash) (hu : u.id = id.sub) :
      MayMake (.route (.change_password cookie req params)) log (.user u)
        (some (.user (u.with_hash hash)))
  | reset_password {payload log now p hash} {u : User}
      (hspent : SpentReset log (hash_token jwt_svc.crates payload.token) now p)
      (hstrong : 3 ≤ jwt_svc.crates.zxcvbn_score payload.new_password)
      (hhash : HashedTo log payload.new_password hash) (hu : u.id = p.user_id) :
      MayMake (.route (.confirm_password_reset payload)) log (.user u)
        (some (.user (u.with_hash_at hash now)))
  | update_user {cookie id dto log who} {u : User} (hauth : Authenticated log cookie who)
      (hu : u.id = id) :
      MayMake (.route (.update_user cookie id dto)) log (.user u) (some (.user (u.update dto)))
  | confirm_email {call log} {u : User} (hcall : Confirms call log u.id) :
      MayMake call log (.user u) (some (.user (u.update ⟨none, some true⟩)))
  | logout {cookie log who} {s : Session} (hauth : Authenticated log cookie who)
      (hs : jwt_svc.crates.uuid_parse cookie = some s.id) :
      MayMake (.route (.logout cookie)) log (.session s) none
  | delete_session {cookie id log who z} {s : Session} (hauth : Authenticated log cookie who)
      (hshown : Shown log id z) (hsub : z.sub = who.sub) (hs : s.id = id) :
      MayMake (.route (.delete_session cookie id)) log (.session s) none
  | revoke_session {call log u l z} {s : Session} (hcall : RotatesFor jwt_svc call log u)
      (hnamed : Named log u l) (hz : z ∈ l) (hs : s.id = z.id) :
      MayMake call log (.session s) none
  /-- The viewset asks no more than that somebody is let in. -/
  | viewset_update_session {cookie id change log who} {s : Session}
      (hauth : Authenticated log cookie who) (hs : s.id = id) :
      MayMake (.update_session cookie id change) log (.session s)
        (some (.session (change.1 s)))
  | viewset_delete_session {cookie id log who} {s : Session} (hauth : Authenticated log cookie who)
      (hs : s.id = id) : MayMake (.delete_session cookie id) log (.session s) none
  | jwt_logout {cmd log} {t : RefreshToken}
      (ht : t.token_hash = hash_token jwt_svc.crates (trim cmd.refresh_token)) :
      MayMake (.route (.jwt_logout cmd)) log (.refresh_token t)
        (some (.refresh_token { t with revoked := some true }))
  | revoke_token {call log} {t : RefreshToken} (hcall : RotatesFor jwt_svc call log t.user_id) :
      MayMake call log (.refresh_token t) (some (.refresh_token { t with revoked := some true }))
  | exchange {cmd log z} {t : RefreshToken}
      (hfound : Found refresh_tokens
        (fun t => t.token_hash == hash_token jwt_svc.crates (trim cmd.refresh_token)) log z)
      (hlive : z.revoked = some false)
      (ht : t.token_hash = hash_token jwt_svc.crates (trim cmd.refresh_token)) :
      MayMake (.route (.refresh cmd)) log (.refresh_token t) none
  | spend {payload log now} {p : PasswordReset} (hnow : Told log now)
      (hp : Redeemable (hash_token jwt_svc.crates payload.token) now p = true) :
      MayMake (.route (.confirm_password_reset payload)) log (.password_reset p)
        (some (.password_reset p.spent))
  | passkey_remove {cookie row_id log who} {k : PasskeyCredential}
      (hauth : Authenticated log cookie who) (hk : k.id = row_id) (hsub : k.user_id = who.sub) :
      MayMake (.route (.passkey_remove cookie row_id)) log (.passkey_credential k) none
  | passkey_used {username credential params log r key key' result data now}
      {timed : TimedAuthState} {k : PasskeyCredential}
      (hvouched : Vouched jwt_svc wa
        (.route (.passkey_login_finish username credential params)) log r params)
      (hgot : ⟨.auth_get (trim username), Except.ok (some timed)⟩ ∈ log)
      (hfinish : wa.finish_passkey_authentication credential timed.state = .ok result)
      (hid : key.cred_id = result.cred_id)
      (hupdate : wa.update_credential key result = some (true, key'))
      (hdata : wa.to_string key' = some data) (hnow : Told log now)
      (hk : k.credential_id = credential_id_b64 key') :
      MayMake (.route (.passkey_login_finish username credential params)) log
        (.passkey_credential k)
        (some (.passkey_credential { k with passkey_data := data, last_used_at := some now }))
  | delete_user {cookie id log who r} (hauth : Authenticated log cookie who)
      (hr : Cascades id r = true) : MayMake (.delete_user cookie id) log r none

/-- What a call may put into a cache; what it draws a number from is not empty. -/
inductive MayPut : ServiceCall Reg Cred → Replies → Op → Prop
  | tokens_insert {call log u} {e : FA2Entry} (hcall : Challenges call log u) (hdrew : Drew log e)
      (hemail : e.email = u.id) : MayPut call log (.tokens_insert e.nonce e)
  | links_insert {call log u} {e : FA2Entry} (hcall : Challenges call log u) (hdrew : Drew log e)
      (hput : ⟨.tokens_insert e.nonce e, ()⟩ ∈ log) (hemail : e.email = u.id) :
      MayPut call log (.links_insert e.link e)
  | reg_set {cookie log id r l challenge} {timed : TimedRegState} {existing : List Passkey}
      (hauth : Authenticated log cookie id) (hr : Retrieved log id.sub r)
      (hlisted : Listed passkey_credentials (fun k => k.user_id == id.sub) log l)
      (hread : (l.mapM fun k => wa.from_str k.passkey_data) = some existing)
      (hdrew : ⟨.challenge, Except.ok challenge⟩ ∈ log)
      (hstate : timed.state = wa.start_passkey_registration id.sub r.username
        (existing.map (·.cred_id)) challenge) :
      MayPut (.route (.passkey_register_start cookie)) log
        (.reg_set (jwt_svc.crates.uuid_to_string id.sub) timed)
  | auth_set {username log u l challenge} {timed : TimedAuthState} {credentials : List Passkey}
      (hfound : Found users (fun u => u.username == trim username) log u)
      (hlisted : Listed passkey_credentials (fun k => k.user_id == u.id) log l)
      (hread : (l.mapM fun k => wa.from_str k.passkey_data) = some credentials)
      (hdrew : ⟨.challenge, Except.ok challenge⟩ ∈ log)
      (hstate : timed.state = wa.start_passkey_authentication credentials challenge) :
      MayPut (.route (.passkey_login_start username)) log (.auth_set (trim username) timed)
  | other {call log o} (ho : match o with
      | .tokens_insert _ _ | .links_insert _ _ | .reg_set _ _ | .auth_set _ _ => False
      | .random_range lo hi => lo < hi
      | _ => True) : MayPut call log o

/-- The cookie of a route behind the session middleware. -/
def ServiceCall.cookie : ServiceCall Reg Cred → Option String
  | .route (.jwt cookie) | .route (.logout cookie) | .route (.account cookie)
  | .route (.change_password cookie _ _) | .route (.get_sessions cookie)
  | .route (.delete_session cookie _) | .route (.update_user cookie _ _)
  | .route (.passkey_register_start cookie) | .route (.passkey_register_finish cookie _ _)
  | .route (.passkey_list cookie) | .route (.passkey_remove cookie _) | .delete_user cookie _
  | .update_session cookie _ _ | .delete_session cookie _ | .read cookie _ => some cookie
  | _ => none

/-- The call is to one of the two viewsets under `/me/admin`. -/
def ServiceCall.Viewset : ServiceCall Reg Cred → Prop
  | .route (.update_user _ _ _) | .delete_user _ _ | .update_session _ _ _ | .delete_session _ _
  | .read _ _ => True
  | _ => False

/-- The call has inserted a new session and committed it; the database has returned it as `s`. -/
def Started (log : Replies) (new : NewSession) (s : Session) : Prop :=
  ∃ past, ⟨.sql .commit, Except.ok ()⟩ ::
    ⟨.sql (.insert .tx (fun n => sessions.inj (new.withId n)) sessions.clashes),
      Except.ok (.session s)⟩ :: past <:+ log

/-- The texts of refused registrations, challenges and confirmations. -/
def refusal_texts : List String := ["Invalid request", "Invalid or expired token", "User not found"]

def success_messages : List String :=
  ["User registered successfully", "Logged out successfully", "Password changed successfully",
    "If the account exists, a reset link has been sent"]

/-- The texts of the passkey endpoints' errors. -/
def passkey_errors : List String :=
  ["Internal server error",
    "No registration in progress for this account, or it expired. Please start again.",
    "Passkey not found", "Username is required", "No passkeys registered for this account",
    "No authentication in progress for this account",
    "No authentication in progress for this account, or it expired. Please try again."]

/-- A body without data: a text of the source, or what the WebAuthn library has reported. -/
inductive SaysNothing : Replies → Body → Prop
  | empty {log} : SaysNothing log .empty
  | text {log s} (h : s ∈ refusal_texts) : SaysNothing log (.text s)
  | refusal {log} (e : AuthError) : SaysNothing log (ApiResponse.error e.to_string)
  | success {log message} (h : message ∈ success_messages) :
      SaysNothing log (ApiResponse.success .unit message)
  | passkey_error {log message} (h : message ∈ passkey_errors) : SaysNothing log (.error message)
  | not_drawn {log e} (h : ⟨.challenge, Except.error e⟩ ∈ log) :
      SaysNothing log (.error ("WebAuthn error: " ++ e))
  | registration_failed {log credential state e}
      (h : wa.finish_passkey_registration credential state = .error e) :
      SaysNothing log (.error ("WebAuthn error: " ++ e))
  | login_failed {log credential state e}
      (h : wa.finish_passkey_authentication credential state = .error e) :
      SaysNothing log (.error ("WebAuthn error: " ++ e))
  | registered {log} : SaysNothing log (.status "success" (some "Passkey registered"))
  | removed {log} : SaysNothing log (.status "success" none)

/-- An error a viewset reports: the repository's, one of a statement, or that nothing is created
there. -/
inductive Reports : Replies → ApiError → Prop
  | users {log e} (h : ⟨.list_users, Except.error e⟩ ∈ log) : Reports log e
  | user {log id e} (h : ⟨.retrieve id, Except.error e⟩ ∈ log) : Reports log e
  | update {log id dto e} (h : ⟨.update id dto, Except.error e⟩ ∈ log) : Reports log e
  | sessions {log e} (h : ⟨.list_sessions none, Except.error e⟩ ∈ log) : Reports log e
  | missing {log} : Reports log .NotFound
  | database {log} (e : DbError) : Reports log (.Database e)
  | not_created {log} (endpoint : String) : Reports log
      (.Validation ("manual create not allowed, use " ++ endpoint ++ " endpoint"))

/-- A viewset hands on what its repository has answered. -/
inductive Repeats : Replies → Body → Prop
  | empty {log} : Repeats log .empty
  | error {log e} (h : Reports log e) : Repeats log (.api_error e)
  | users {log l} (h : ⟨.list_users, Except.ok l⟩ ∈ log) : Repeats log (.users l)
  | user {log id r} (h : Retrieved log id r) : Repeats log (.user r)
  | updated {log id dto r} (h : ⟨.update id dto, Except.ok r⟩ ∈ log) : Repeats log (.user r)
  | page {log l} (h : ⟨.list_sessions none, Except.ok l⟩ ∈ log) : Repeats log (.page l)
  | session {log id s} (h : Shown log id s) : Repeats log (.session s)
  | changed {log p s} {f : Session → Session}
      (h : Visited (sessions.sel p) (sessions.set f) log (.session s)) : Repeats log (.session s)

/-- The data a response may carry. -/
inductive MayShow : ServiceCall Reg Cred → Replies → Body → Prop
  | nothing {call log body} (h : SaysNothing wa log body) : MayShow call log body
  | viewset {call log body} (hcall : call.Viewset) (h : Repeats log body) : MayShow call log body
  | account {cookie log id message} (hauth : Authenticated log cookie id) :
      MayShow (.route (.account cookie)) log
        (.api true message (some (.account id.sub id.username id.email)))
  | sessions {cookie log id l} (hauth : Authenticated log cookie id)
      (hnamed : Named log id.sub l) : MayShow (.route (.get_sessions cookie)) log (.sessions l)
  | passkeys {cookie log id l} {shown : List CredentialSummary}
      (hauth : Authenticated log cookie id)
      (hlisted : Listed passkey_credentials (fun k => k.user_id == id.sub) log l)
      (hshown : ∀ x ∈ shown, ∃ k ∈ l, x = ⟨k.id, k.label, k.created_at, k.last_used_at⟩) :
      MayShow (.route (.passkey_list cookie)) log (.passkeys shown)
  | jwt {cookie log id message} {res : JwtResult} (hauth : Authenticated log cookie id)
      (hsigned : ⟨.sign id.sub jwt_svc.aud, Except.ok res.access_token⟩ ∈ log)
      (hrecorded : TokenRecorded jwt_svc.crates log id.sub res.refresh_token) :
      MayShow (.route (.jwt cookie)) log (.api true message (some (.jwt res)))
  | refresh {cmd log t r message} {res : JwtResult}
      (hfound : Found refresh_tokens
        (fun t => t.token_hash == hash_token jwt_svc.crates (trim cmd.refresh_token)) log t)
      (hlive : t.revoked = some false) (hr : Retrieved log t.user_id r)
      (hsigned : ⟨.sign r.id jwt_svc.aud, Except.ok res.access_token⟩ ∈ log)
      (hrecorded : TokenRecorded jwt_svc.crates log r.id res.refresh_token) :
      MayShow (.route (.refresh cmd)) log (.api true message (some (.jwt res)))
  | registration_options {cookie log key} {timed : TimedRegState}
      {r : Op.Reply (.reg_set key timed)} (hput : ⟨.reg_set key timed, r⟩ ∈ log) :
      MayShow (.route (.passkey_register_start cookie)) log (.options timed.state.challenge)
  | login_options {username log key} {timed : TimedAuthState}
      {r : Op.Reply (.auth_set key timed)} (hput : ⟨.auth_set key timed, r⟩ ∈ log) :
      MayShow (.route (.passkey_login_start username)) log (.options timed.state.challenge)
  | user_id {username log u} (hfound : Found users (fun u => u.username == username) log u) :
      MayShow (.username2userid username) log (.text (jwt_svc.crates.uuid_to_string u.id))

/-- What a response may hand out. -/
structure MayGive (call : ServiceCall Reg Cred) (log : Replies) (resp : HttpResponse) : Prop where
  /-- A session cookie names a session the call has started for an account it had proof of. -/
  cookie : ∀ k, resp.cookie = some k → k = removal_cookie ∨
    ∃ new s r params, k = session_cookie jwt_svc.crates s.id ∧ Started log new s ∧
      Vouched jwt_svc wa call log r params ∧ new.sub = r.id
  body : MayShow jwt_svc wa call log resp.body

/-- The responses a call may give. -/
structure MayAnswer (call : ServiceCall Reg Cred) (log : Replies) (resp : HttpResponse) : Prop
    extends MayGive jwt_svc wa call log resp where
  /-- Behind the session middleware nobody gets further than a 401 who is not let in. -/
  admitted : ∀ cookie, call.cookie = some cookie → resp.status ≠ 401 →
    ∃ id, Authenticated log cookie id

/-- What the calls of the service are entitled to. -/
def mandates : Rights (ServiceCall Reg Cred) HttpResponse where
  Add := MayAdd jwt_svc wa
  Make := MayMake jwt_svc wa
  Put := MayPut jwt_svc wa
  Answer := MayAnswer jwt_svc wa
  Wide call := ∃ cookie id, call = .delete_user cookie id

end Mandates

end Authnz
