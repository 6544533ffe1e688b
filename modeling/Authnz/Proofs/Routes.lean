/-
What each route asks for.

Every route is walked once, for the operations it may ask for and for leaving no
transaction open.  A handful of operations matter to one property or another (a new
account, a new password hash, a new refresh token, ...); the rest are `Plain`.
-/
import Authnz.Model.Requests
import Authnz.Proofs.Rotation

namespace Authnz

open Basis

/-- The ceremony store of passkey logins is written. -/
def Ceremony : Op → Prop
  | .auth_set _ _ => True
  | .auth_delete _ => True
  | _ => False

/-- Operations that write no account, no passkey, no ceremony and no new refresh token. -/
inductive Plain : Op → Prop
  | quiet {o : Op} (h : World.Quiet o) (hc : ¬ Ceremony o) : Plain o
  | begin : Plain (.sql .begin)
  | commit : Plain (.sql .commit)
  | rollback : Plain (.sql .rollback)
  | select (p : Record → Bool) : Plain (.sql (.select p))
  | session_insert (new : NewSession) : Plain (session_insert new)
  | session_delete (p : Session → Bool) :
      Plain (.sql (.write .pool (sessions.sel p) Relation.del))
  | token_revoke (p : RefreshToken → Bool) :
      Plain (.sql (.write .pool (refresh_tokens.sel p)
        (refresh_tokens.set fun r => { r with revoked := some true })))
  | token_delete (ex : Executor) (p : RefreshToken → Bool) :
      Plain (.sql (.write ex (refresh_tokens.sel p) Relation.del))
  | reset_insert (mk : Uuid → PasswordReset) :
      Plain (.sql (.insert .tx (fun n => password_resets.inj (mk n)) password_resets.clashes))
  | reset_spend (p : PasswordReset → Bool) :
      Plain (.sql (.write .tx (password_resets.sel p)
        (password_resets.set fun p => { p with used := some true })))
  | event_insert (e : Event) :
      Plain (.sql (.insert .tx (fun _ => outbox.inj e) outbox.clashes))

/-- A new account. -/
def UserInsert (o : Op) : Prop :=
  ∃ mk : Uuid → User, o = .sql (.insert .pool (fun n => users.inj (mk n)) users.clashes)

/-- A new password hash. -/
inductive HashWrite : Op → Prop
  | change (id : Uuid) (hash : String) :
      HashWrite (.sql (.write .pool (users.sel (UserIs id)) (users.set (·.with_hash hash))))
  | reset (id : Uuid) (hash : String) (now : Time) :
      HashWrite (.sql (.write .tx (users.sel (UserIs id)) (users.set (·.with_hash_at hash now))))

/-- A new refresh token. -/
def TokenInsert (o : Op) : Prop :=
  ∃ (ex : Executor) (r : RefreshToken),
    o = .sql (.insert ex (fun _ => refresh_tokens.inj r) refresh_tokens.clashes)

/-- A change through the user repository. -/
def UserUpdate (o : Op) : Prop := ∃ id dto, o = .update id dto

/-- The flag a confirmed challenge sets. -/
def EmailConfirm (o : Op) : Prop := ∃ id, o = .update id ⟨none, some true⟩

/-- A new passkey. -/
def PasskeyInsert (o : Op) : Prop :=
  ∃ mk : Uuid → PasskeyCredential,
    o = .sql (.insert .pool (fun n => passkey_credentials.inj (mk n)) passkey_credentials.clashes)

/-- A passkey removed. -/
def PasskeyDelete (o : Op) : Prop :=
  ∃ p, o = .sql (.write .pool (passkey_credentials.sel p) Relation.del)

/-- What a login with a passkey may write. -/
inductive PasskeyLogin : Op → Prop
  | ceremony {o : Op} (h : Ceremony o) : PasskeyLogin o
  | counter (p : PasskeyCredential → Bool) (data : String) (now : Time) :
      PasskeyLogin (.sql (.write .pool (passkey_credentials.sel p)
        (passkey_credentials.set fun k => { k with passkey_data := data, last_used_at := some now })))

/-- The operation that is particular to a route. -/
def Request.special {Reg Cred : Type} : Request Reg Cred → Op → Prop
  | .register _ => UserInsert
  | .confirm_password_reset _ => HashWrite
  | .change_password _ _ _ => HashWrite
  | .refresh _ => TokenInsert
  | .jwt _ => TokenInsert
  | .update_user _ _ _ => UserUpdate
  | .confirm _ _ => EmailConfirm
  | .confirm_token _ _ _ => EmailConfirm
  | .passkey_register_finish _ _ _ => PasskeyInsert
  | .passkey_remove _ _ => PasskeyDelete
  | .passkey_login_start _ => PasskeyLogin
  | .passkey_login_finish _ _ _ => PasskeyLogin
  | _ => fun _ => False

/-! ### Walking -/

/-- The statement behind an operation, if it writes to the database. -/
def Op.statement : Op → Option (SqlOp Record)
  | .sql q => some q
  | .update id dto => some (.write .pool (users.sel fun v => v.id == id)
      (users.set fun v => v.update dto))
  | _ => none

/-- An `UPDATE` turns a matching row of the table into its new value. -/
theorem makes_set {α : Type} {T : Relation α} {ex : Executor} {p : α → Bool} {f : α → α}
    {old : Record} {v : Option Record}
    (h : (SqlOp.write ex (T.sel p) (T.set f)).Makes old v) :
    ∃ a, old = T.inj a ∧ p a = true ∧ v = some (T.inj (f a)) := by
  obtain ⟨hp, rfl⟩ := h
  obtain ⟨a, rfl, ha⟩ := T.sel_iff.mp hp
  exact ⟨a, rfl, ha, T.set_inj f a⟩

/-- Whatever an operation does to the table, the statement behind it does. -/
theorem World.answer_db {c : Crates} {me : Nat} {o : Op} {ch : Choice} {w w' : World} {r : o.Reply}
    (h : World.answer c me o ch w = some (w', r)) :
    w'.db = w.db ∨ ∃ q out r', o.statement = some q ∧
      SqlOp.answer me q out w.db = some (w'.db, r') := by
  cases o with
  | sql q =>
      obtain ⟨out, -, hdb, -⟩ := answer_sql h
      exact .inr ⟨q, out, r, rfl, hdb⟩
  | update id dto =>
      rcases answer_update h with ⟨rfl, -⟩ | ⟨u, r', -, -, hans, -⟩
      · exact .inl rfl
      · exact .inr ⟨_, _, r', rfl, hans⟩
  | _ => exact .inl (answer_quiet (by trivial) h)

/-- The operation leaves no transaction open where none was. -/
def Op.Pooled (o : Op) : Prop := ∀ q, o.statement = some q → q.Pooled

/-- A statement outside a transaction leaves none open. -/
theorem Op.Pooled.settled {c : Crates} {me : Nat} {o : Op} (ho : o.Pooled) {ch : Choice}
    {w w' : World} {r : o.Reply} (h : World.answer c me o ch w = some (w', r))
    (hw : w.Settled me) : w'.Settled me := by
  rcases World.answer_db h with heq | ⟨q, out, r', hq, hans⟩
  · rw [World.Settled, heq]
    exact hw
  · exact (ho q hq).settled hans hw

/-- The handler asks only for operations in `P` and closes every transaction it opens. -/
structure Orderly (c : Crates) (me : Nat) (P : Op → Prop) {α : Type} (p : Handler α) : Prop where
  uses : p.Uses P
  settles : ∀ {admits : World → Op → Choice → Prop} {w : World}, w.Settled me →
    Ends c me admits p w fun w' _ => w'.Settled me

section Rules

variable {c : Crates} {me : Nat} {P P' : Op → Prop} {α β ε ε' : Type}

/-- The operations may be described more loosely. -/
theorem uses_mono {p : Handler α} (h : p.Uses P) (hP : ∀ o, P o → P' o) : p.Uses P' := by
  induction p with
  | ret a => trivial
  | ask o k ih => exact ⟨hP o h.1, fun r => ih r (h.2 r)⟩

/-- Turning an error into another asks for nothing. -/
theorem uses_attempt {err : ε' → ε} {p : Handler (Except ε' α)} (h : p.Uses P) :
    (attempt err p).run.Uses P := by
  refine Prog.uses_bind h fun r => ?_
  cases r <;> trivial

theorem uses_ask {o : Op} (h : P o) : (ask o).Uses P := Prog.uses_op h

/-- A query asks for one statement, and so do the other three. -/
theorem uses_select {T : Relation α} {q : α → Bool} (h : P (.sql (.select (T.sel q)))) :
    (select_from T q).Uses P := Prog.uses_bind (uses_ask h) fun _ => trivial

theorem uses_update {T : Relation α} {ex : Executor} {q : α → Bool} {f : α → α}
    (h : P (.sql (.write ex (T.sel q) (T.set f)))) : (update_set T ex q f).Uses P :=
  Prog.uses_bind (uses_ask h) fun _ => trivial

theorem uses_delete {T : Relation α} {ex : Executor} {q : α → Bool}
    (h : P (.sql (.write ex (T.sel q) Relation.del))) : (delete_from T ex q).Uses P :=
  Prog.uses_bind (uses_ask h) fun _ => trivial

theorem uses_insert {T : Relation α} {ex : Executor} {mk : Uuid → α}
    (h : P (.sql (.insert ex (fun n => T.inj (mk n)) T.clashes))) : (insert_into T ex mk).Uses P :=
  Prog.uses_bind (uses_ask h) fun _ => trivial

/-- A function that rolls back when its body fails asks for that too. -/
theorem uses_in_tx {body : Service ε α} (h : body.run.Uses P) (hr : P (.sql .rollback)) :
    (in_tx body).run.Uses P :=
  Prog.uses_bind h fun _ => Prog.uses_bind (uses_ask hr) fun _ => trivial

namespace Orderly

/-- An orderly handler stays orderly when more is allowed. -/
theorem mono {p : Handler α} (h : Orderly c me P p) (hP : ∀ o, P o → P' o) :
    Orderly c me P' p := ⟨uses_mono h.uses hP, h.settles⟩

/-- Nothing particular to a route is asked for. -/
theorem plain {p : Handler α} (h : Orderly c me Plain p) :
    Orderly c me (fun o => Plain o ∨ P o) p := h.mono fun _ => .inl

theorem pure (a : α) : Orderly c me P (Prog.ret a) := ⟨trivial, fun hw => ends_ret hw⟩

/-- One orderly handler after the other. -/
theorem bind {p : Handler α} {f : α → Handler β} (hp : Orderly c me P p)
    (hf : ∀ a, Orderly c me P (f a)) : Orderly c me P (p >>= f) :=
  ⟨Prog.uses_bind hp.uses fun a => (hf a).uses,
    fun hw => ends_bind (ends_mono (hp.settles hw) fun _ a hw' => (hf a).settles hw')⟩

theorem ask {o : Op} (h : P o) (ho : o.Pooled) : Orderly c me P (ask o) :=
  ⟨uses_ask h, fun hw => ends_ask fun _ _ _ _ hans => ho.settled hans hw⟩

/-- The same where the first may fail. -/
theorem bindE {p : Service ε α} {f : α → Service ε β} (hp : Orderly c me P p.run)
    (hf : ∀ a, Orderly c me P (f a).run) : Orderly c me P (p >>= f).run := by
  refine Orderly.bind hp fun r => ?_
  cases r with
  | ok a => exact hf a
  | error e => exact .pure _

/-- An error turned into another. -/
theorem attempt {err : ε' → ε} {p : Handler (Except ε' α)} (hp : Orderly c me P p) :
    Orderly c me P (Authnz.attempt err p).run := by
  refine Orderly.bind hp fun r => ?_
  cases r <;> exact .pure _

theorem lift {p : Handler α} (hp : Orderly c me P p) :
    Orderly c me P (liftM p : Service ε α).run := Orderly.bind hp fun _ => .pure _

/-- Whatever happens inside a transaction, it is over when the function returns. -/
theorem in_tx {body : Service ε α} (hb : body.run.Uses P) (hr : P (.sql .rollback)) :
    Orderly c me P (Authnz.in_tx body).run := by
  refine ⟨Prog.uses_bind hb fun r => Prog.uses_bind (uses_ask hr) fun _ => trivial, fun hw => ?_⟩
  refine ends_bind fun r w' _ => ends_bind (ends_ask fun ch w'' u _ hans => ends_ret ?_)
  obtain ⟨out, -, hdb, -⟩ := World.answer_sql hans
  rw [World.Settled, SqlOp.alone_rollback hdb]
  exact Desk.settled_rollback _

/-- A handler that runs a service function and looks at how it ended. -/
theorem run {p : Service ε α} {g : Except ε α → Handler β} (hp : Orderly c me P p.run)
    (hok : ∀ a, Orderly c me P (g (.ok a))) (herr : ∀ e, Orderly c me P (g (.error e))) :
    Orderly c me P (p.run >>= g) := by
  refine Orderly.bind hp fun r => ?_
  cases r with
  | ok a => exact hok a
  | error e => exact herr e

/-- An operation that writes nothing. -/
theorem quiet {o : Op} (h : World.Quiet o) (hc : ¬ Ceremony o) : Orderly c me Plain (Authnz.ask o) :=
  .ask (.quiet h hc) fun q hq => by cases o <;> first | exact h.elim | cases hq

theorem select {T : Relation α} {q : α → Bool} : Orderly c me Plain (select_from T q) :=
  .bind (.ask (.select _) fun _ hq => by cases hq; trivial) fun _ => .pure _

theorem update {T : Relation α} {q : α → Bool} {f : α → α}
    (h : P (.sql (.write .pool (T.sel q) (T.set f)))) : Orderly c me P (update_set T .pool q f) :=
  .bind (.ask h fun _ hq => by cases hq; trivial) fun _ => .pure _

theorem delete {T : Relation α} {q : α → Bool}
    (h : P (.sql (.write .pool (T.sel q) Relation.del))) :
    Orderly c me P (delete_from T .pool q) :=
  .bind (.ask h fun _ hq => by cases hq; trivial) fun _ => .pure _

theorem insert {T : Relation α} {mk : Uuid → α}
    (h : P (.sql (.insert .pool (fun n => T.inj (mk n)) T.clashes))) :
    Orderly c me P (insert_into T .pool mk) :=
  .bind (.ask h fun _ hq => by cases hq; trivial) fun _ => .pure _

/-- The transaction is open from the reply on. -/
theorem begin_tx : Orderly c me Plain Authnz.begin_tx :=
  .ask .begin fun _ hq => by cases hq; trivial

end Orderly

end Rules

/-! ### The services -/

section Services

variable {c : Crates} {me : Nat}

theorem uses_commit : commit_tx.Uses Plain := uses_ask .commit

/-- Drawing a token writes nothing. -/
theorem generate_raw_token_orderly : Orderly c me Plain generate_raw_token :=
  .bind (.quiet trivial id) fun _ => .pure _

theorem generate_raw_token_uses : generate_raw_token.Uses Plain :=
  Prog.uses_bind (uses_ask (.quiet trivial id)) fun _ => trivial

theorem utc_now_orderly : Orderly c me Plain utc_now := .quiet trivial id

/-- Lookups are queries. -/
theorem get_user_by_username_orderly (username : String) :
    Orderly c me Plain (UserService.get_user_by_username username).run :=
  .bindE (.attempt .select) fun rows => by cases rows <;> exact .pure _

theorem get_user_by_email_orderly (email : String) :
    Orderly c me Plain (UserService.get_user_by_email email).run :=
  .bindE (.attempt .select) fun rows => by cases rows <;> exact .pure _

theorem get_user_by_id_orderly (id : Uuid) :
    Orderly c me Plain (UserService.get_user_by_id id).run :=
  .attempt (.quiet trivial fun h => h)

/-- A login reads, and verifies the password. -/
theorem password_login_orderly (cmd : PasswordLoginCmd) :
    Orderly c me Plain (UserService.password_login c cmd).run := by
  unfold UserService.password_login
  by_cases h : (cmd.username.isEmpty || cmd.password.isEmpty) = true
  · rw [if_pos h]
    exact .pure _
  rw [if_neg h]
  refine .bindE (get_user_by_email_orderly _) fun user => ?_
  cases c.bcrypt_verify cmd.password user.password_hash with
  | none => exact .pure _
  | some b => cases b <;> exact .pure _

theorem username_login_orderly (cmd : PasswordLoginCmd) :
    Orderly c me Plain (UserService.username_login c cmd).run := by
  unfold UserService.username_login
  by_cases h : (cmd.username.isEmpty || cmd.password.isEmpty) = true
  · rw [if_pos h]
    exact .pure _
  rw [if_neg h]
  refine .bindE (get_user_by_username_orderly _) fun user => ?_
  cases c.bcrypt_verify cmd.password user.password_hash with
  | none => exact .pure _
  | some b => cases b <;> exact .pure _

theorem bcrypt_hash_orderly (password : String) :
    Orderly c me Plain (attempt (fun _ => AuthError.Bcrypt) (ask (.bcrypt_hash password))).run :=
  .attempt (.quiet trivial fun h => h)

/-- Creating a user is one INSERT. -/
theorem create_user_orderly (username email hash : String) :
    Orderly c me (fun o => Plain o ∨ UserInsert o)
      (UserService.create_user username email hash).run :=
  .bindE (Orderly.lift utc_now_orderly |>.plain) fun _ =>
    .attempt (.insert (.inr ⟨_, rfl⟩))

/-- Of what it asks for, a registration has only that INSERT to itself. -/
theorem register_orderly (username email password : String) :
    Orderly c me (fun o => Plain o ∨ UserInsert o)
      (UserService.register c username email password).run := by
  unfold UserService.register
  by_cases h : (username.isEmpty || password.isEmpty) = true
  · rw [if_pos h]
    exact .pure _
  rw [if_neg h]
  by_cases hs : c.zxcvbn_score password < 3
  · rw [if_pos hs]
    exact .pure _
  rw [if_neg hs]
  exact .bindE ((bcrypt_hash_orderly _).plain) fun hash =>
    .bindE (create_user_orderly _ _ _) fun _ => .pure _

/-- A change writes the hash of an account. -/
theorem change_password_orderly (cmd : ChangePasswordCmd) :
    Orderly c me (fun o => Plain o ∨ HashWrite o) (UserService.change_password c cmd).run := by
  unfold UserService.change_password
  by_cases hs : c.zxcvbn_score cmd.new_password < 3
  · rw [if_pos hs]
    exact .pure _
  rw [if_neg hs]
  refine .bindE (.plain (.bindE (.attempt .select) fun rows => ?_))
    fun hash => ?_
  · cases rows <;> exact .pure _
  dsimp only
  by_cases hv : (!(c.bcrypt_verify cmd.current_password hash).getD false) = true
  · rw [if_pos hv]
    exact .pure _
  rw [if_neg hv]
  exact .bindE ((bcrypt_hash_orderly _).plain) fun hash =>
    .bindE (.attempt (.update (.inr (.change _ _)))) fun _ => .pure _

/-- A request writes a reset and an event in one transaction, which it closes. -/
theorem request_password_reset_orderly (cmd : RequestPasswordResetCmd) :
    Orderly c me Plain (UserService.request_password_reset c cmd).run := by
  refine .bindE (.attempt .select) fun rows => ?_
  cases rows with
  | nil => exact .pure _
  | cons u us =>
      refine .bindE (.lift generate_raw_token_orderly) fun raw =>
        .bindE (.lift utc_now_orderly) fun t => .bindE (.attempt .begin_tx) fun _ =>
          .in_tx ?_ .rollback
      refine Prog.uses_bindE (uses_attempt (uses_insert (.reset_insert _))) fun _ =>
        Prog.uses_bindE (uses_attempt (uses_insert (.event_insert _))) fun _ =>
          uses_attempt uses_commit

/-- A confirmation writes a hash too, and closes its transaction however it ends. -/
theorem confirm_password_reset_orderly (cmd : ConfirmPasswordResetCmd) :
    Orderly c me (fun o => Plain o ∨ HashWrite o)
      (UserService.confirm_password_reset c cmd).run := by
  unfold UserService.confirm_password_reset
  by_cases hs : c.zxcvbn_score cmd.new_password < 3
  · rw [if_pos hs]
    exact .pure _
  rw [if_neg hs]
  refine .bindE (Orderly.lift utc_now_orderly |>.plain) fun now =>
    .bindE (Orderly.attempt .begin_tx |>.plain) fun _ => .in_tx ?_ (.inl .rollback)
  refine Prog.uses_bindE (uses_attempt (uses_update (.inl (.reset_spend _)))) fun rows => ?_
  cases rows with
  | nil => trivial
  | cons reset rest =>
      exact Prog.uses_bindE (uses_attempt (uses_ask (.inl (.quiet trivial fun h => h)))) fun _ =>
        Prog.uses_bindE (uses_attempt (uses_update (.inr (.reset _ _ _)))) fun _ =>
          Prog.uses_bindE (uses_attempt (uses_ask (.inl .commit))) fun _ => trivial

theorem uses_lift {P : Op → Prop} {ε α : Type} {p : Handler α} (h : p.Uses P) :
    (liftM p : Service ε α).run.Uses P := Prog.uses_bind h fun _ => trivial

/-- A pair of tokens is signed and its row inserted. -/
theorem issue_token_pair_with_uses (jwt_svc : JwtService) (ex : Executor) (user_id : Uuid)
    (issuer : String) : (jwt_svc.issue_token_pair_with ex user_id issuer).run.Uses
      (fun o => Plain o ∨ TokenInsert o) :=
  Prog.uses_bindE (uses_attempt (uses_ask (.inl (.quiet trivial fun h => h)))) fun _ =>
    Prog.uses_bindE (uses_lift (uses_mono generate_raw_token_uses fun _ => .inl)) fun _ =>
    Prog.uses_bindE (uses_lift (uses_ask (.inl (.quiet trivial fun h => h)))) fun _ =>
    Prog.uses_bindE (uses_lift (uses_ask (.inl (.quiet trivial fun h => h)))) fun _ =>
    Prog.uses_bindE (uses_attempt (uses_insert (.inr ⟨_, _, rfl⟩))) fun _ => trivial

/-- A session is one INSERT. -/
theorem issue_session_orderly (user : SessionUser) (params : SessionParams) :
    Orderly c me Plain (SessionService.issue_session user params).run :=
  .bindE (.lift utc_now_orderly) fun _ =>
    .bindE (.attempt (.insert (.session_insert _))) fun _ => .pure _

/-- Ending one is a DELETE. -/
theorem session_delete_orderly (id : Uuid) :
    Orderly c me Plain (SessionRepo.delete id).run :=
  .bindE (.attempt (.delete (.session_delete _))) fun rows => by cases rows <;> exact .pure _

/-- So is a logout, when the cookie parses. -/
theorem session_logout_orderly (session_id : String) :
    Orderly c me Plain (SessionService.logout c session_id).run := by
  unfold SessionService.logout
  cases c.uuid_parse session_id with
  | none => exact .pure _
  | some id =>
      refine Orderly.run (session_delete_orderly id) (fun _ => .pure _) fun e => ?_
      cases e <;> exact .pure _

/-- The sweep of the sessions goes on whatever a deletion answers. -/
theorem delete_each_orderly (l : List Session) :
    Orderly c me Plain (SessionService.delete_each l) := by
  induction l with
  | nil => exact .pure _
  | cons s rest ih => exact .bind (session_delete_orderly s.id) fun _ => ih

/-- It starts with their listing. -/
theorem revoke_all_for_user_orderly (sub : Uuid) :
    Orderly c me Plain (SessionService.revoke_all_for_user sub).run :=
  .bindE (.attempt (.quiet trivial fun h => h)) fun l => .lift (delete_each_orderly l)

/-- The sweep of the tokens is one UPDATE. -/
theorem revoke_all_user_tokens_orderly (user_id : Uuid) :
    Orderly c me Plain (JwtService.revoke_all_user_tokens user_id).run :=
  .bindE (.attempt (.update (.token_revoke _))) fun _ => .pure _

theorem session_user_orderly (user : UserResponse) : Orderly c me Plain (SessionUser.new user) :=
  .bind utc_now_orderly fun _ => .pure _

/-- A login ends in a new session. -/
theorem start_session_orderly (user : User) (params : SessionParams) :
    Orderly c me Plain (handlers.start_session c user params) :=
  .bind (session_user_orderly _) fun _ =>
    .run (issue_session_orderly _ _) (fun _ => .pure _) fun _ => .pure _

/-- Outside a refresh the row of a pair is the only write. -/
theorem issue_token_pair_orderly (jwt_svc : JwtService) (user_id : Uuid) (issuer : String) :
    Orderly c me (fun o => Plain o ∨ TokenInsert o)
      (jwt_svc.issue_token_pair user_id issuer).run :=
  .bindE (.plain (.attempt (.quiet trivial fun h => h))) fun _ =>
    .bindE (Orderly.lift generate_raw_token_orderly |>.plain) fun _ =>
    .bindE (Orderly.lift utc_now_orderly |>.plain) fun _ =>
    .bindE (Orderly.lift utc_now_orderly |>.plain) fun _ =>
    .bindE (.attempt (.insert (.inr ⟨_, _, rfl⟩))) fun _ => .pure _

/-- A refresh reads the row and the clock. -/
theorem get_refresh_token_by_hash_uses (hash : String) :
    (JwtService.get_refresh_token_by_hash hash).run.Uses Plain := by
  refine Prog.uses_bindE (uses_attempt (uses_select (.select _))) fun rows => ?_
  cases rows with
  | nil => trivial
  | cons r rest =>
      dsimp only
      split <;> trivial

/-- It deletes the row and inserts another in one transaction, closed in the end. -/
theorem refresh_orderly (jwt_svc : JwtService) (cmd : RefreshCmd) :
    Orderly c me (fun o => Plain o ∨ TokenInsert o) (jwt_svc.refresh cmd).run := by
  unfold JwtService.refresh
  dsimp only
  by_cases he : (trim cmd.refresh_token).isEmpty = true
  · rw [if_pos he]
    exact .pure _
  rw [if_neg he]
  refine .bindE (Orderly.attempt .begin_tx |>.plain) fun _ => .in_tx ?_ (.inl .rollback)
  refine Prog.uses_bindE (uses_mono (get_refresh_token_by_hash_uses _) fun _ => .inl) fun row => ?_
  by_cases hr : row.revoked = true
  · rw [if_pos hr]
    trivial
  rw [if_neg hr]
  refine Prog.uses_bindE (uses_lift (uses_ask (.inl (.quiet trivial fun h => h)))) fun now => ?_
  by_cases hx : row.expires_at < (now : Time)
  · rw [if_pos hx]
    trivial
  rw [if_neg hx]
  exact Prog.uses_bindE (uses_attempt (uses_ask (.inl (.quiet trivial fun h => h)))) fun user =>
    Prog.uses_bindE (Prog.uses_bindE (uses_attempt (uses_delete (.inl (.token_delete _ _))))
      fun _ => trivial) fun _ =>
    Prog.uses_bindE (issue_token_pair_with_uses _ _ _ _) fun _ =>
    Prog.uses_bindE (uses_attempt (uses_ask (.inl .commit))) fun _ => trivial

/-- A logout of a token is one UPDATE. -/
theorem jwt_logout_orderly (jwt_svc : JwtService) (cmd : LogoutCmd) :
    Orderly c me Plain (jwt_svc.logout cmd).run := by
  unfold JwtService.logout
  dsimp only
  by_cases he : (trim cmd.refresh_token).isEmpty = true
  · rw [if_pos he]
    exact .pure _
  rw [if_neg he]
  refine Orderly.run (.bindE (.attempt (.update (.token_revoke _))) fun rows => ?_)
    (fun _ => .pure _) fun e => ?_
  · by_cases hl : rows.length = 0
    · rw [if_pos hl]
      exact .pure _
    · rw [if_neg hl]
      exact .pure _
  · cases e <;> exact .pure _

/-! ### Passwordless logins -/

/-- A challenge is drawn and put into the two caches. -/
theorem release_pair_orderly (email : Uuid) :
    Orderly c me Plain (PasswdlessService.release_pair email) :=
  .bind generate_raw_token_orderly fun _ => .bind generate_raw_token_orderly fun _ =>
    .bind (.quiet trivial fun h => h) fun _ => .bind (.quiet trivial fun h => h) fun _ =>
    .bind (.quiet trivial fun h => h) fun _ => .pure _

/-- Its event is one INSERT. -/
theorem publish_challenge_orderly (payload : ChallengeRequested) :
    Orderly c me Plain (PasswdlessService.publish_challenge payload).run :=
  .bindE (.attempt .begin_tx) fun _ => .in_tx
    (Prog.uses_bindE (uses_attempt (uses_insert (.event_insert _))) fun _ =>
      uses_attempt uses_commit) .rollback

/-- A challenge is looked up, released and published. -/
theorem challenge_by_email_orderly (email : String) :
    Orderly c me Plain (PasswdlessService.challenge_by_email email).run := by
  refine .bindE (.lift (get_user_by_email_orderly email)) fun r => ?_
  cases r with
  | error e => exact .pure _
  | ok user =>
      exact .bindE (.lift (release_pair_orderly _)) fun payload => publish_challenge_orderly payload

theorem challenge_by_username_orderly (username : String) :
    Orderly c me Plain (PasswdlessService.challenge_by_username username).run := by
  refine .bindE (.lift (get_user_by_username_orderly username)) fun r => ?_
  cases r with
  | error e => exact .pure _
  | ok user =>
      exact .bindE (.lift (release_pair_orderly _)) fun payload => publish_challenge_orderly payload

/-- A confirmation takes its entry from a cache. -/
theorem confirm_link_orderly (token : String) :
    Orderly c me Plain (PasswdlessService.confirm_link token).run := by
  refine .bindE (.lift (.quiet trivial fun h => h)) fun fa2 => ?_
  change Option FA2Entry at fa2
  cases fa2 with
  | none => exact .pure _
  | some fa2 => exact .bindE (.lift (.quiet trivial fun h => h)) fun _ => .pure _

theorem confirm_token_orderly (token : Nat) (nonce : String) :
    Orderly c me Plain (PasswdlessService.confirm_token token nonce).run := by
  refine .bindE (.lift (.quiet trivial fun h => h)) fun fa2 => ?_
  change Option FA2Entry at fa2
  cases fa2 with
  | none => exact .pure _
  | some fa2 =>
      dsimp only
      by_cases ht : fa2.token ≠ token
      · rw [if_pos ht]
        exact .pure _
      · rw [if_neg ht]
        exact .bindE (.lift (.quiet trivial fun h => h)) fun _ => .pure _

/-- It sets the flag of the account before the session starts. -/
theorem start_confirmed_session_orderly (user_id : Uuid) (params : SessionParams) :
    Orderly c me (fun o => Plain o ∨ EmailConfirm o)
      (handlers.start_confirmed_session c user_id params) := by
  refine .run ((get_user_by_id_orderly user_id).plain) (fun user => ?_) fun _ => .pure _
  refine .bind (.ask (.inr ⟨_, rfl⟩) fun _ hq => by cases hq; trivial) fun _ => ?_
  refine (Orderly.bind (session_user_orderly _) fun user => ?_).plain
  exact .run (issue_session_orderly _ _) (fun _ => .pure _) fun _ => .pure _

/-! ### Passkeys -/

section Passkeys

variable {Reg Cred : Type} {wa : Webauthn Reg Cred}

/-- The passkeys of a user are read. -/
theorem credentials_for_user_orderly (user_id : Uuid) :
    Orderly c me Plain (CredsRepo.credentials_for_user wa user_id).run := by
  refine .bindE (.attempt .select) fun rows => ?_
  split <;> exact .pure _

/-- A new one is one INSERT. -/
theorem insert_credential_orderly (user_id : Uuid) (passkey : Passkey) (label : Option String) :
    Orderly c me (fun o => Plain o ∨ PasskeyInsert o)
      (CredsRepo.insert_credential wa user_id passkey label).run := by
  unfold CredsRepo.insert_credential
  dsimp only
  cases wa.to_string passkey with
  | none => exact .pure _
  | some data =>
      exact .bindE (Orderly.lift utc_now_orderly |>.plain) fun _ =>
        .bindE (.attempt (.insert (.inr ⟨_, rfl⟩))) fun _ => .pure _

/-- Its data are written back by one UPDATE. -/
theorem update_credential_orderly (passkey : Passkey) :
    Orderly c me (fun o => Plain o ∨ PasskeyLogin o)
      (CredsRepo.update_credential wa passkey).run := by
  unfold CredsRepo.update_credential
  dsimp only
  cases wa.to_string passkey with
  | none => exact .pure _
  | some data =>
      exact .bindE (Orderly.lift utc_now_orderly |>.plain) fun _ =>
        .bindE (.attempt (.update (.inr (.counter _ _ _)))) fun _ => .pure _

theorem list_for_user_orderly (user_id : Uuid) :
    Orderly c me Plain (CredsRepo.list_for_user user_id).run :=
  .bindE (.attempt .select) fun _ => .pure _

/-- Removing it is one DELETE. -/
theorem delete_credential_orderly (user_id row_id : Uuid) :
    Orderly c me (fun o => Plain o ∨ PasskeyDelete o)
      (CredsRepo.delete_credential user_id row_id).run :=
  .bindE (.attempt (.delete (.inr ⟨_, rfl⟩))) fun _ => .pure _

theorem now_secs_orderly : Orderly c me Plain now_secs :=
  .bind utc_now_orderly fun _ => .pure _

/-- The states of registrations are in a cache of their own. -/
theorem take_reg_state_orderly (user_id : Uuid) :
    Orderly c me Plain (PasskeyState.take_reg_state c user_id) := by
  refine .bind (.quiet trivial fun h => h) fun got => ?_
  change Except Failed (Option TimedRegState) at got
  rcases got with e | _ | timed
  · exact .pure _
  · exact .pure _
  · exact .bind (.quiet trivial fun h => h) fun _ => .bind now_secs_orderly fun _ => .pure _

/-- Writing to the cache of login ceremonies is no statement. -/
theorem ceremony_orderly {o : Op} (h : World.Quiet o) (hc : Ceremony o) :
    Orderly c me (fun o => Plain o ∨ PasskeyLogin o) (ask o) :=
  .ask (.inr (.ceremony hc)) fun q hq => by cases o <;> first | exact h.elim | cases hq

/-- A login takes its state from that cache. -/
theorem take_auth_state_orderly (username : String) :
    Orderly c me (fun o => Plain o ∨ PasskeyLogin o) (PasskeyState.take_auth_state username) := by
  refine .bind (.plain (.quiet trivial fun h => h)) fun got => ?_
  change Except Failed (Option TimedAuthState) at got
  rcases got with e | _ | timed
  · exact .pure _
  · exact .pure _
  · exact .bind (ceremony_orderly trivial trivial) fun _ =>
      .bind (now_secs_orderly.plain) fun _ => .pure _

theorem store_reg_state_orderly (user_id : Uuid) (state : PasskeyRegistration) :
    Orderly c me Plain (PasskeyState.store_reg_state c user_id state) :=
  .bind now_secs_orderly fun _ => .bind (.quiet trivial fun h => h) fun _ => .pure _

theorem store_auth_state_orderly (username : String) (state : PasskeyAuthentication) :
    Orderly c me (fun o => Plain o ∨ PasskeyLogin o)
      (PasskeyState.store_auth_state username state) :=
  .bind (now_secs_orderly.plain) fun _ =>
    .bind (ceremony_orderly trivial trivial) fun _ => .pure _

/-- Starting a registration reads and fills a cache. -/
theorem register_start_orderly (session : Identity) :
    Orderly c me Plain (passkey_register.start c wa session) := by
  refine .run (get_user_by_id_orderly _) (fun user => ?_) fun _ => .pure _
  refine .run (credentials_for_user_orderly _) (fun existing => ?_) fun _ => .pure _
  refine .bind (.quiet trivial fun h => h) fun r => ?_
  change Except String String at r
  cases r with
  | error e => exact .pure _
  | ok challenge => exact .bind (store_reg_state_orderly _ _) fun _ => .pure _

/-- Finishing it inserts a passkey. -/
theorem register_finish_orderly (session : Identity) (label : Option String) (credential : Reg) :
    Orderly c me (fun o => Plain o ∨ PasskeyInsert o)
      (passkey_register.finish c wa session label credential) := by
  refine .bind ((take_reg_state_orderly _).plain) fun got => ?_
  cases got with
  | none => exact .pure _
  | some reg_state =>
      dsimp only
      cases wa.finish_passkey_registration credential reg_state with
      | error e => exact .pure _
      | ok passkey =>
          exact .run (insert_credential_orderly _ _ _) (fun _ => .pure _) fun _ => .pure _

/-- A removal deletes one. -/
theorem register_remove_orderly (session : Identity) (row_id : Uuid) :
    Orderly c me (fun o => Plain o ∨ PasskeyDelete o)
      (passkey_register.remove session row_id) := by
  refine .run (delete_credential_orderly _ _) (fun removed => ?_) fun _ => .pure _
  cases removed <;> exact .pure _

/-- Starting a login writes the ceremony only. -/
theorem login_start_orderly (username : String) :
    Orderly c me (fun o => Plain o ∨ PasskeyLogin o) (passkey_login.start wa username) := by
  unfold passkey_login.start
  dsimp only
  by_cases he : (trim username).isEmpty = true
  · rw [if_pos he]
    exact .pure _
  rw [if_neg he]
  refine .run ((get_user_by_username_orderly _).plain) (fun user => ?_) fun _ => .pure _
  refine .run ((credentials_for_user_orderly _).plain) (fun creds => ?_) fun _ => .pure _
  dsimp only
  by_cases hc : creds.isEmpty = true
  · rw [if_pos hc]
    exact .pure _
  rw [if_neg hc]
  refine .bind (.plain (.quiet trivial fun h => h)) fun r => ?_
  change Except String String at r
  cases r with
  | error e => exact .pure _
  | ok challenge => exact .bind (store_auth_state_orderly _ _) fun _ => .pure _

/-- A login that cannot write its counter goes on. -/
theorem refresh_counter_orderly (user_id : Uuid) (result : AuthenticationResult) :
    Orderly c me (fun o => Plain o ∨ PasskeyLogin o)
      (passkey_login.refresh_counter wa user_id result) := by
  refine .run ((credentials_for_user_orderly _).plain) (fun creds => ?_) fun _ => .pure _
  dsimp only
  cases creds.find? fun k => k.cred_id == result.cred_id with
  | none => exact .pure _
  | some cred =>
      dsimp only
      rcases wa.update_credential cred result with _ | ⟨_ | _, cred⟩
      · exact .pure _
      · exact .pure _
      · exact .bind (update_credential_orderly _) fun _ => .pure _

/-- Finishing it takes the ceremony and may write a passkey back. -/
theorem login_finish_orderly (username : String) (credential : Cred) (params : SessionParams) :
    Orderly c me (fun o => Plain o ∨ PasskeyLogin o)
      (passkey_login.finish c wa username credential params) := by
  refine .run ((get_user_by_username_orderly _).plain) (fun user => ?_) fun _ => .pure _
  refine .bind (take_auth_state_orderly _) fun got => ?_
  cases got with
  | none => exact .pure _
  | some auth_state =>
      dsimp only
      cases wa.finish_passkey_authentication credential auth_state with
      | error e => exact .pure _
      | ok result =>
          exact .bind (refresh_counter_orderly _ _) fun _ =>
            (start_session_orderly _ _).plain

end Passkeys

end Services

/-! ### The routes -/

/-- Looking the session up changes nothing. -/
theorem exec_authenticate {c : Crates} {me : Nat} {admits : World → Op → Choice → Prop}
    {cookie : String} {w w' : World} {session : Op.Reply (.authenticate cookie)}
    (h : Prog.Exec (World.answer c) me admits (ask (.authenticate cookie)) w session w') : w' = w := by
  obtain ⟨ch, -, hans⟩ := Prog.exec_op.mp h
  exact (World.answer_authenticate hans).1

/-- What `change_password` does once the password is changed. -/
def after_change (c : Crates) (user_id : Uuid) (params : SessionParams) : Handler HttpResponse := do
  let _ ← (SessionService.revoke_all_for_user user_id).run
  match ← (UserService.get_user_by_id user_id).run with
  | .error e => return auth_error_to_response e
  | .ok user =>
      let user ← SessionUser.new user
      match ← (SessionService.issue_session user params).run with
      | .error e => return auth_error_to_response e
      | .ok sess_id =>
          let _ ← (JwtService.revoke_all_user_tokens user_id).run
          return ⟨200, some (session_cookie c sess_id),
            ApiResponse.success .unit "Password changed successfully"⟩

/-- What `confirm_password_reset` does once the password is reset. -/
def after_reset (user_id : Uuid) : Handler HttpResponse := do
  let _ ← (SessionService.revoke_all_for_user user_id).run
  let _ ← (JwtService.revoke_all_user_tokens user_id).run
  return .finish 200

section Handlers

variable {c : Crates} {me : Nat} {P : Op → Prop}

/-- What follows the new hash writes no hash. -/
theorem after_change_orderly (user_id : Uuid) (params : SessionParams) :
    Orderly c me Plain (after_change c user_id params) := by
  refine .bind (revoke_all_for_user_orderly _) fun _ => ?_
  refine .run (get_user_by_id_orderly _) (fun user => ?_) fun _ => .pure _
  refine .bind (session_user_orderly _) fun user => ?_
  refine .run (issue_session_orderly _ _) (fun sess_id => ?_) fun _ => .pure _
  exact .bind (revoke_all_user_tokens_orderly _) fun _ => .pure _

theorem after_reset_orderly (user_id : Uuid) : Orderly c me Plain (after_reset user_id) :=
  .bind (revoke_all_for_user_orderly user_id) fun _ =>
    .bind (revoke_all_user_tokens_orderly user_id) fun _ => .pure _

/-- Behind the middleware a handler is as orderly as without it. -/
theorem session_middleware_orderly {cookie : String} {handler : Identity → Handler HttpResponse}
    (h : ∀ id, Orderly c me (fun o => Plain o ∨ P o) (handler id)) :
    Orderly c me (fun o => Plain o ∨ P o) (session_middleware cookie handler) := by
  refine .bind (.plain (.quiet trivial fun h => h)) fun session => ?_
  change Option Identity at session
  cases session with
  | none => exact .pure _
  | some id => exact h id

namespace handlers

theorem register_orderly (req : RegisterRequest) :
    Orderly c me (fun o => Plain o ∨ UserInsert o) (handlers.register c req) := by
  unfold handlers.register
  by_cases h : (!req.validate c) = true
  · rw [if_pos h]
    exact .pure _
  rw [if_neg h]
  exact .run (Authnz.register_orderly _ _ _) (fun _ => .pure _) fun _ => .pure _

theorem login_orderly (req : LoginRequest) (params : SessionParams) :
    Orderly c me Plain (handlers.login c req params) :=
  .run (password_login_orderly _) (fun _ => start_session_orderly _ _) fun _ => .pure _

theorem username_login_orderly (req : LoginRequest) (params : SessionParams) :
    Orderly c me Plain (handlers.username_login c req params) :=
  .run (Authnz.username_login_orderly _) (fun _ => start_session_orderly _ _) fun _ => .pure _

theorem logout_orderly (cookie : Option String) : Orderly c me Plain (handlers.logout c cookie) := by
  cases cookie with
  | none => exact .pure _
  | some sess_id => exact .run (session_logout_orderly _) (fun _ => .pure _) fun _ => .pure _

theorem change_password_orderly (session : Identity) (req : ChangePasswordRequest)
    (params : SessionParams) :
    Orderly c me (fun o => Plain o ∨ HashWrite o)
      (handlers.change_password c session req params) :=
  .run (Authnz.change_password_orderly _) (fun _ => (after_change_orderly _ _).plain)
    fun _ => .pure _

theorem confirm_password_reset_orderly (payload : PasswordResetConfirmRequest) :
    Orderly c me (fun o => Plain o ∨ HashWrite o) (handlers.confirm_password_reset c payload) :=
  .run (Authnz.confirm_password_reset_orderly _) (fun user_id => (after_reset_orderly user_id).plain)
    fun _ => .pure _

/-- The owner is read first, and the row deleted only if it is the caller. -/
theorem delete_session_orderly (id : Uuid) (sess : Identity) :
    Orderly c me Plain (handlers.delete_session id sess) := by
  refine .run (p := SessionRepo.retrieve id) (.quiet trivial fun h => h) (fun session => ?_)
    fun e => by cases e <;> exact .pure _
  dsimp only
  by_cases hs : session.sub ≠ sess.sub
  · rw [if_pos hs]
    exact .pure _
  · rw [if_neg hs]
    exact .run (session_delete_orderly id) (fun _ => .pure _) fun e => by cases e <;> exact .pure _

/-- The viewset changes an account through the repository. -/
theorem update_user_orderly (id : Uuid) (dto : UpdateUser) :
    Orderly c me (fun o => Plain o ∨ UserUpdate o) (handlers.update_user c id dto) := by
  refine .bind (.ask (.inr ⟨_, _, rfl⟩) fun _ hq => by cases hq; trivial) fun updated => ?_
  change Except ApiError UserResponse at updated
  cases updated <;> exact .pure _

end handlers

/-- **Every route keeps to its operations** and leaves no transaction open. -/
theorem Request.orderly {Reg Cred : Type} (jwt_svc : JwtService) (wa : Webauthn Reg Cred)
    (req : Request Reg Cred) :
    Orderly c me (fun o => Plain o ∨ req.special o) (req.handler c jwt_svc wa) := by
  cases req with
  | register req => exact handlers.register_orderly req
  | login req params => exact (handlers.login_orderly req params).plain
  | username_login req params =>
      exact (handlers.username_login_orderly req params).plain
  | request_password_reset req =>
      exact .plain (.bind (request_password_reset_orderly _) fun _ => .pure _)
  | confirm_password_reset payload => exact handlers.confirm_password_reset_orderly payload
  | jwt_logout cmd =>
      exact .plain (.run (jwt_logout_orderly jwt_svc cmd) (fun _ => .pure _) fun _ => .pure _)
  | refresh cmd => exact .run (refresh_orderly jwt_svc cmd) (fun _ => .pure _) fun _ => .pure _
  | jwt cookie =>
      exact session_middleware_orderly fun id =>
        .run (issue_token_pair_orderly jwt_svc _ _) (fun _ => .pure _) fun _ => .pure _
  | logout cookie =>
      exact session_middleware_orderly fun _ => (handlers.logout_orderly _).plain
  | account cookie => exact session_middleware_orderly fun _ => .pure _
  | change_password cookie req params =>
      exact session_middleware_orderly fun id => handlers.change_password_orderly id req params
  | get_sessions cookie =>
      refine session_middleware_orderly fun id => .plain (.bind (.quiet trivial fun h => h) fun r => ?_)
      change Except ApiError (List Session) at r
      cases r <;> exact .pure _
  | delete_session cookie id =>
      exact session_middleware_orderly fun sess =>
        (handlers.delete_session_orderly id sess).plain
  | update_user cookie id dto =>
      exact session_middleware_orderly fun _ => handlers.update_user_orderly id dto
  | challenge1 email =>
      exact .plain (.run (challenge_by_email_orderly email) (fun _ => .pure _) fun _ => .pure _)
  | challenge2 username =>
      exact .plain (.run (challenge_by_username_orderly username) (fun _ => .pure _)
        fun _ => .pure _)
  | confirm link params =>
      exact .run ((confirm_link_orderly link).plain)
        (fun _ => start_confirmed_session_orderly _ _) fun _ => .pure _
  | confirm_token token nonce params =>
      exact .run ((confirm_token_orderly token nonce).plain)
        (fun _ => start_confirmed_session_orderly _ _) fun _ => .pure _
  | passkey_register_start cookie =>
      exact session_middleware_orderly fun session =>
        (register_start_orderly session).plain
  | passkey_register_finish cookie label credential =>
      exact session_middleware_orderly fun session => register_finish_orderly session label credential
  | passkey_list cookie =>
      exact session_middleware_orderly fun session =>
        .plain (.run (list_for_user_orderly _) (fun _ => .pure _) fun _ => .pure _)
  | passkey_remove cookie row_id =>
      exact session_middleware_orderly fun session => register_remove_orderly session row_id
  | passkey_login_start username => exact login_start_orderly username
  | passkey_login_finish username credential params =>
      exact login_finish_orderly username credential params

end Handlers

/-- In particular every route asks for nothing else. -/
theorem Request.uses {Reg Cred : Type} (req : Request Reg Cred) (c : Crates) (jwt_svc : JwtService)
    (wa : Webauthn Reg Cred) : (req.handler c jwt_svc wa).Uses fun o => Plain o ∨ req.special o :=
  have horderly : Orderly c 0 _ (req.handler c jwt_svc wa) := req.orderly jwt_svc wa
  horderly.uses

end Authnz
