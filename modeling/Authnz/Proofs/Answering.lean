/-
What a status says of what the call has done.

Each handler is walked with the deeds of its call in hand: an error is answered only
when nothing has been committed, but for what five requests may leave half done, and
a request that is accepted has committed a new row or a change where it asks for one.
Of the repositories' own calls and of a commit it is taken that they take effect as a
whole or, where they report a failure, not at all; of the viewsets, that they answer
an error with a status for one.
-/
import Authnz.Proofs.Custody
import Authnz.Proofs.Reckoning

namespace Authnz

open Basis

/-! ### Walking by the deeds -/

/-- A call that answers as its deeds allow. -/
abbrev answering {Call α : Type} (Final : Call → Deeds Record → α → Prop) :
    Protocol Op Op.Reply Call α := .folding deeds_step .blank Final

/-- Operations that do nothing to a row. -/
def Idle : Op → Prop
  | .sql (.select _) => True
  | .sql .begin => True
  | .sql _ => False
  | .update _ _ => False
  | _ => True

/-- Operations that commit nothing. -/
def Pending : Op → Prop
  | .sql .commit => False
  | .sql (.write .pool _ _) => False
  | .sql (.insert .pool _ _) => False
  | .update _ _ => False
  | _ => True

theorem deeds_step_idle {l : Deeds Record} {o : Op} {r : o.Reply} (h : Idle o) :
    deeds_step l o r = l := by
  cases o with
  | sql q =>
      cases q with
      | select | begin => rfl
      | _ => exact h.elim
  | update => exact h.elim
  | _ => rfl

theorem deeds_step_pending {l : Deeds Record} {o : Op} {r : o.Reply} (h : Pending o) :
    (deeds_step l o r).kept = l.kept := by
  cases o with
  | sql q =>
      cases q with
      | commit => exact h.elim
      | insert | visit => cases r <;> rfl
      | _ => rfl
  | update => exact h.elim
  | _ => rfl

theorem split_idle {o : Op} (h : Idle o) : o.split.Uses Idle := by
  cases o with
  | sql q =>
      cases q with
      | select | begin => exact Prog.uses_op h
      | _ => exact h.elim
  | update => exact h.elim
  | _ => exact Prog.uses_op h

theorem split_pending {o : Op} (h : Pending o) : o.split.Uses Pending := by
  cases o with
  | sql q =>
      cases q with
      | write ex p f =>
          cases ex with
          | pool => exact h.elim
          | tx =>
              have hall : ∀ is, (SqlOp.visitAll p f is).run.Uses fun q => Pending (.sql q) := by
                intro is
                induction is with
                | nil => trivial
                | cons i is ih =>
                    exact Prog.uses_bindE (Prog.uses_op trivial) fun rows =>
                      Prog.uses_bindE ih fun _ => trivial
              exact uses_parts (Prog.uses_bindE (Prog.uses_op trivial) hall)
      | insert ex mk clash =>
          cases ex with
          | pool => exact h.elim
          | tx => exact uses_parts (Prog.uses_op trivial)
      | commit => exact h.elim
      | _ => exact Prog.uses_op h
  | update => exact h.elim
  | _ => exact Prog.uses_op h

section Walks

variable {Call α β γ ε : Type} {Final : Call → Deeds Record → α → Prop} {call : Call}
  {l : Deeds Record} {kept : List (Doing Record)}

theorem goes_idle {p : Handler β} (hp : p.Uses Idle) :
    Goes (answering Final) call p l fun l' _ => l' = l :=
  Protocol.folding_uses (I := (· = l)) (Prog.uses_interp (fun _ => split_idle) hp)
    (fun _ _ _ ho hl => (deeds_step_idle ho).trans hl) rfl

theorem goes_pending {p : Handler β} (hp : p.Uses Pending) :
    Goes (answering Final) call p l fun l' _ => l'.kept = l.kept :=
  Protocol.folding_uses (I := fun l' : Deeds Record => l'.kept = l.kept)
    (Prog.uses_interp (fun _ => split_pending) hp)
    (fun _ _ _ ho hl => (deeds_step_pending ho).trans hl) rfl

/-- Anything may be done before an answer that says nothing. -/
theorem goes_anyhow {p : Handler β} {Q : (answering Final).Phase → β → Prop} (hQ : ∀ l b, Q l b) :
    Goes (answering Final) call p l Q :=
  goes_mono (Protocol.folding_keeps (I := fun _ => True) (fun _ _ _ _ => trivial) trivial)
    fun l' b _ => hQ l' b

theorem goesE_idle {p : Service ε β} (hp : p.run.Uses Idle) :
    GoesE (answering Final) call p l (fun l' _ => l' = l) fun l' _ => l' = l :=
  goes_mono (goes_idle hp) fun l' r h => by cases r <;> exact h

theorem goesE_pending {p : Service ε β} (hp : p.run.Uses Pending) :
    GoesE (answering Final) call p l (fun l' _ => l'.kept = l.kept) fun l' _ => l'.kept = l.kept :=
  goes_mono (goes_pending hp) fun l' r h => by cases r <;> exact h

/-- The rows of a snapshot, taken one after the other. -/
theorem walks_visits {p : Record → Bool} {f : Record → Option Record} (is : List Nat) :
    ∀ l : Deeds Record, (answering Final).Walks call ((SqlOp.visitAll p f is).run.interp sql_part) l
      fun l' r => l'.kept = l.kept ∧
        ∀ rows, r = .ok rows → l'.opened = l.opened ++ rows.map (.changed p f) := by
  induction is with
  | nil =>
      refine fun l => ⟨rfl, fun rows h => ?_⟩
      cases h
      exact (List.append_nil _).symm
  | cons i is ih =>
      intro l r
      cases r with
      | error e => exact ⟨l, rfl, rfl, fun rows h => by cases h⟩
      | ok rows =>
          refine ⟨l.change p f rows, rfl, ?_⟩
          change (answering Final).Walks call (((SqlOp.visitAll p f is).run >>=
            ExceptT.bindCont fun rest => pure (rows ++ rest)).interp sql_part) _ _
          refine Protocol.walks_interp_bind (Protocol.walks_mono (ih _) ?_)
          rintro l' r ⟨hkept, hopened⟩
          cases r with
          | error e => exact ⟨hkept, fun rows h => by cases h⟩
          | ok rest =>
              refine ⟨hkept, fun all h => ?_⟩
              cases h
              rw [hopened rest rfl, Deeds.change, List.map_append, List.append_assoc]

/-- An `UPDATE` or `DELETE` on its own has changed the rows it returns, or nothing. -/
theorem walks_rows {p : Record → Bool} {f : Record → Option Record} (hl : l.opened = []) :
    (answering Final).Walks call (Op.split (.sql (.write .pool p f))) l fun l' r => match r with
      | Except.ok rows => l' = ⟨[], rows.map (.changed p f) ++ l.kept⟩
      | Except.error _ => l' = l := by
  have hdrop : ∀ l' : Deeds Record, l'.kept = l.kept → l'.drop = l := by
    rintro ⟨opened, kept⟩ hkept
    obtain ⟨opened', kept'⟩ := l
    cases hl
    cases hkept
    rfl
  intro r
  cases r with
  | error e => exact ⟨l, rfl, fun u => ⟨l.drop, rfl, hdrop l rfl⟩⟩
  | ok is =>
      refine ⟨l, rfl, ?_⟩
      change (answering Final).Walks call (((SqlOp.visitAll p f is).run >>= _).interp sql_part) _ _
      refine Protocol.walks_interp_bind (Protocol.walks_mono (walks_visits is l) ?_)
      rintro l' r ⟨hkept, hopened⟩
      cases r with
      | error e => exact fun u => ⟨l'.drop, rfl, hdrop l' hkept⟩
      | ok rows =>
          intro r
          cases r with
          | error e => exact ⟨l'.drop, rfl, hdrop l' hkept⟩
          | ok u =>
              refine ⟨l'.settle, rfl, ?_⟩
              change (⟨[], l'.opened ++ l'.kept⟩ : Deeds Record) = _
              rw [hopened rows rfl, hl, hkept]
              rfl

section Tables

variable {τ : Type} {T : Relation τ} {q : τ → Bool} {err : DbError → ε}

/-- The same by the rows of the table. -/
theorem goesE_rows {change : Record → Option Record} {Q : Deeds Record → List τ → Prop}
    {E : Deeds Record → ε → Prop} (hl : l.opened = [])
    (hQ : ∀ rows : List Record,
      Q ⟨[], rows.map (.changed (T.sel q) change) ++ l.kept⟩ (rows.filterMap T.prj))
    (hE : ∀ e, E l e) :
    GoesE (answering Final) call (attempt err do
      let r ← ask (.sql (.write .pool (T.sel q) change))
      return T.decode r) l Q E := by
  refine goesE_attempt (goes_bind (goes_ask (Protocol.walks_mono (walks_rows hl) ?_)))
  intro l' r hr
  cases r with
  | ok rows => exact hr ▸ hQ rows
  | error e => exact hr ▸ hE _

end Tables

/-- What holds a transaction has nothing open in the end. -/
theorem goesE_given_back {body : Service ε β} {Q : Deeds Record → β → Prop}
    {E : Deeds Record → ε → Prop}
    (h : GoesE (answering Final) call body l (fun l' b => Q l'.drop b) fun l' e => E l'.drop e) :
    GoesE (answering Final) call (in_tx body) l Q E :=
  goesE_in_tx (goesE_mono h (fun l' _ hQ => ⟨l'.drop, rfl, hQ⟩) fun l' _ hE => ⟨l'.drop, rfl, hE⟩)

theorem goesE_settle {err : DbError → ε} {Q : Deeds Record → Unit → Prop}
    {E : Deeds Record → ε → Prop} (hQ : Q l.settle ()) (hE : ∀ e, E l.drop e) :
    GoesE (answering Final) call (attempt err commit_tx) l Q E := by
  refine goesE_attempt (goes_ask ?_)
  intro r
  cases r with
  | ok u => exact ⟨l.settle, rfl, hQ⟩
  | error e => exact ⟨l.drop, rfl, hE _⟩

end Walks

/-! ### What a status says -/

section Statuses

variable {Reg Cred : Type}

/-- A request that asks for a new row. -/
def ServiceCall.Posts : ServiceCall Reg Cred → Prop
  | .route (.register _) | .route (.login _ _) | .route (.username_login _ _) | .route (.jwt _)
  | .route (.refresh _) | .route (.change_password _ _ _) | .route (.challenge1 _)
  | .route (.challenge2 _) | .route (.confirm _ _) | .route (.confirm_token _ _ _)
  | .route (.passkey_register_finish _ _ _) | .route (.passkey_login_finish _ _ _) => True
  | _ => False

/-- A request that asks for a change of one row that must be there. -/
def ServiceCall.Edits : ServiceCall Reg Cred → Prop
  | .route (.update_user _ _ _) | .route (.passkey_remove _ _) | .update_session _ _ _
  | .delete_session _ _ => True
  | _ => False

/-- What a request may have done when it fails after all. -/
inductive Unfinished : ServiceCall Reg Cred → Doing Record → Prop
  | password {cookie req params} (q : User → Bool) (f : Record → Option Record) (row : Record) :
      Unfinished (.route (.change_password cookie req params)) (.changed (users.sel q) f row)
  | sessions {cookie req params} (q : Session → Bool) (f : Record → Option Record) (row : Record) :
      Unfinished (.route (.change_password cookie req params)) (.changed (sessions.sel q) f row)
  | confirm {link params} (q : User → Bool) :
      Unfinished (.route (.confirm link params)) (.rewrote (users.sel q))
  | confirm_token {token nonce params} (q : User → Bool) :
      Unfinished (.route (.confirm_token token nonce params)) (.rewrote (users.sel q))
  | passkey {username credential params} (q : PasskeyCredential → Bool)
      (f : Record → Option Record) (row : Record) :
      Unfinished (.route (.passkey_login_finish username credential params))
        (.changed (passkey_credentials.sel q) f row)
  /-- What refers to a user who is not there. -/
  | orphan {cookie id row} (h : users.prj row = none) :
      Unfinished (.delete_user cookie id) (.changed (Cascades id) Relation.del row)

/-- Nothing is open, and what has been committed is no more than a failure may leave. -/
structure Halfway (call : ServiceCall Reg Cred) (l : Deeds Record) : Prop where
  opened : l.opened = []
  kept : ∀ x ∈ l.kept, x.Real → Unfinished call x

/-- A new row has been committed. -/
def Posted (l : Deeds Record) : Prop := ∃ mk row, .added mk row ∈ l.kept

/-- The status is true to what has been done. -/
structure Honest (call : ServiceCall Reg Cred) (l : Deeds Record) (resp : HttpResponse) : Prop where
  refused : 400 ≤ resp.status → ∀ x ∈ l.kept, x.Real → Unfinished call x
  filed : resp.status < 400 → call.Posts → Posted l
  edited : resp.status < 400 → call.Edits → ∃ y ∈ l.kept, y.Alters

variable {call : ServiceCall Reg Cred} {l : Deeds Record} {resp : HttpResponse}

theorem halfway_blank : Halfway call .blank := ⟨rfl, fun _ hx => (List.not_mem_nil hx).elim⟩

theorem Halfway.refusal (h : Halfway call l) (hs : 400 ≤ resp.status) : Honest call l resp :=
  ⟨fun _ => h.kept, fun hlt => absurd hlt (Nat.not_lt.mpr hs),
    fun hlt => absurd hlt (Nat.not_lt.mpr hs)⟩

theorem Posted.acceptance (h : Posted l) (hcall : call.Posts) (hs : resp.status < 400) :
    Honest call l resp := by
  refine ⟨fun hge => absurd hs (Nat.not_lt.mpr hge), fun _ _ => h, fun _ hedits => ?_⟩
  cases call with
  | route req => cases req <;> first | exact hedits.elim | exact hcall.elim
  | _ => exact hcall.elim

/-- Requests that neither file nor edit a row may answer what they like. -/
theorem Halfway.answer (h : Halfway call l) (hfiles : ¬ call.Posts) (hedits : ¬ call.Edits) :
    Honest call l resp :=
  ⟨fun _ => h.kept, fun _ hf => absurd hf hfiles, fun _ he => absurd he hedits⟩

theorem auth_error_refuses (e : AuthError) : 400 ≤ (auth_error_to_response e).status := by
  cases e <;> simp [auth_error_to_response, HttpResponse.json, HttpResponse.finish]

theorem translate_error_refuses (e : PasswdlessError) : 400 ≤ (translate_error e).status := by
  cases e <;> simp [translate_error, HttpResponse.json, HttpResponse.finish]

/-- The request is walked to an answer that is true to its deeds. -/
abbrev Answers (call : ServiceCall Reg Cred) (p : Handler HttpResponse) (l : Deeds Record) : Prop :=
  Goes (answering Honest) call p l (Honest call)

/-! ### Reading -/

section Reads

variable {ε β γ : Type} {g : β → Service ε γ} {Q : Deeds Record → γ → Prop}
  {E : Deeds Record → ε → Prop}

theorem goes_after {p : Handler β} {g : β → Handler γ} (hp : p.Uses Idle)
    (hg : ∀ b, Goes (answering Honest) call (g b) l Q) :
    Goes (answering Honest) call (p >>= g) l Q :=
  goes_bind (goes_mono (goes_idle hp) fun _ b h => h ▸ hg b)

/-- A handler that runs a service function, by how that may end. -/
theorem goes_then {p : Service ε β} {g : Except ε β → Handler γ} {S : Deeds Record → β → Prop}
    (hp : GoesE (answering Honest) call p l S E)
    (hS : ∀ l b, S l b → Goes (answering Honest) call (g (.ok b)) l Q)
    (hE : ∀ l e, E l e → Goes (answering Honest) call (g (.error e)) l Q) :
    Goes (answering Honest) call (p.run >>= g) l Q := goes_run (goesE_mono hp hS hE)

/-- What is left whether a service function fails or not. -/
theorem goes_of_both {p : Service ε β} {I : Deeds Record → Prop}
    (hp : GoesE (answering Honest) call p l (fun l' _ => I l') fun l' _ => I l') :
    Goes (answering Honest) call p.run l fun l' _ => I l' :=
  goes_mono hp fun _ r h => by cases r <;> exact h

theorem goesE_after {p : Service ε β} (hp : p.run.Uses Idle)
    (hg : ∀ b, GoesE (answering Honest) call (g b) l Q E) (hE : ∀ e, E l e) :
    GoesE (answering Honest) call (p >>= g) l Q E :=
  goesE_bind (goesE_mono (goesE_idle hp) (fun _ b h => h ▸ hg b) fun _ e h => h ▸ hE e)

end Reads

theorem select_idle {τ : Type} {T : Relation τ} {q : τ → Bool} : (select_from T q).Uses Idle :=
  uses_select trivial

theorem now_idle : utc_now.Uses Idle := uses_ask trivial

theorem raw_token_idle : generate_raw_token.Uses Idle :=
  Prog.uses_bind (uses_ask trivial) fun _ => trivial

theorem username_idle (username : String) :
    (UserService.get_user_by_username username).run.Uses Idle :=
  Prog.uses_bindE (uses_attempt select_idle) fun rows => by cases rows <;> trivial

theorem email_idle (email : String) : (UserService.get_user_by_email email).run.Uses Idle :=
  Prog.uses_bindE (uses_attempt select_idle) fun rows => by cases rows <;> trivial

theorem user_idle (id : Uuid) : (UserService.get_user_by_id id).run.Uses Idle :=
  uses_attempt (uses_ask trivial)

theorem password_hash_idle (id : Uuid) : (UserService.password_hash_for id).run.Uses Idle :=
  Prog.uses_bindE (uses_attempt select_idle) fun rows => by cases rows <;> trivial

theorem bcrypt_idle (password : String) :
    (attempt (fun _ => AuthError.Bcrypt) (ask (.bcrypt_hash password))).run.Uses Idle :=
  uses_attempt (uses_ask trivial)

theorem password_login_idle (c : Crates) (cmd : PasswordLoginCmd) :
    (UserService.password_login c cmd).run.Uses Idle := by
  unfold UserService.password_login
  refine uses_ite (fun _ => trivial) fun _ => Prog.uses_bindE (email_idle _) fun user => ?_
  cases c.bcrypt_verify cmd.password user.password_hash with
  | none => trivial
  | some b => cases b <;> trivial

theorem username_login_idle (c : Crates) (cmd : PasswordLoginCmd) :
    (UserService.username_login c cmd).run.Uses Idle := by
  unfold UserService.username_login
  refine uses_ite (fun _ => trivial) fun _ => Prog.uses_bindE (username_idle _) fun user => ?_
  cases c.bcrypt_verify cmd.password user.password_hash with
  | none => trivial
  | some b => cases b <;> trivial

theorem session_user_idle (user : UserResponse) : (SessionUser.new user).Uses Idle :=
  Prog.uses_bind now_idle fun _ => trivial

theorem sessions_idle (sub : Uuid) : (SessionRepo.list sub).Uses Idle := uses_ask trivial

theorem session_idle (id : Uuid) : (SessionRepo.retrieve id).run.Uses Idle := uses_ask trivial

theorem refresh_token_idle (hash : String) :
    (JwtService.get_refresh_token_by_hash hash).run.Uses Idle := by
  refine Prog.uses_bindE (uses_attempt select_idle) fun rows => ?_
  cases rows with
  | nil => trivial
  | cons r rest =>
      dsimp only
      split <;> trivial

theorem release_idle (email : Uuid) : (PasswdlessService.release_pair email).Uses Idle :=
  Prog.uses_bind raw_token_idle fun _ => Prog.uses_bind raw_token_idle fun _ =>
    Prog.uses_bind (uses_ask trivial) fun _ => Prog.uses_bind (uses_ask trivial) fun _ =>
    Prog.uses_bind (uses_ask trivial) fun _ => trivial

theorem confirm_link_idle (link : String) :
    (PasswdlessService.confirm_link link).run.Uses Idle := by
  refine Prog.uses_bindE (uses_lift (uses_ask trivial)) fun fa2 => ?_
  change Option FA2Entry at fa2
  cases fa2 with
  | none => trivial
  | some e => exact Prog.uses_bindE (uses_lift (uses_ask trivial)) fun _ => trivial

theorem confirm_token_idle (token : Nat) (nonce : String) :
    (PasswdlessService.confirm_token token nonce).run.Uses Idle := by
  refine Prog.uses_bindE (uses_lift (uses_ask trivial)) fun fa2 => ?_
  change Option FA2Entry at fa2
  cases fa2 with
  | none => trivial
  | some e =>
      exact uses_ite (fun _ => trivial) fun _ =>
        Prog.uses_bindE (uses_lift (uses_ask trivial)) fun _ => trivial

section Ceremonies

variable (c : Crates) (wa : Webauthn Reg Cred)

theorem now_secs_idle : now_secs.Uses Idle := Prog.uses_bind now_idle fun _ => trivial

theorem credentials_idle (user_id : Uuid) :
    (CredsRepo.credentials_for_user wa user_id).run.Uses Idle := by
  refine Prog.uses_bindE (uses_attempt select_idle) fun rows => ?_
  split <;> trivial

theorem passkeys_idle (user_id : Uuid) : (CredsRepo.list_for_user user_id).run.Uses Idle :=
  Prog.uses_bindE (uses_attempt select_idle) fun _ => trivial

theorem take_reg_state_idle (user_id : Uuid) :
    (PasskeyState.take_reg_state c user_id).Uses Idle := by
  refine Prog.uses_bind (uses_ask trivial) fun got => ?_
  change Except Failed (Option TimedRegState) at got
  rcases got with _ | _ | timed
  · trivial
  · trivial
  · exact Prog.uses_bind (uses_ask trivial) fun _ => Prog.uses_bind now_secs_idle fun _ => trivial

theorem take_auth_state_idle (username : String) :
    (PasskeyState.take_auth_state username).Uses Idle := by
  refine Prog.uses_bind (uses_ask trivial) fun got => ?_
  change Except Failed (Option TimedAuthState) at got
  rcases got with _ | _ | timed
  · trivial
  · trivial
  · exact Prog.uses_bind (uses_ask trivial) fun _ => Prog.uses_bind now_secs_idle fun _ => trivial

theorem store_reg_state_idle (user_id : Uuid) (state : PasskeyRegistration) :
    (PasskeyState.store_reg_state c user_id state).Uses Idle :=
  Prog.uses_bind now_secs_idle fun _ => Prog.uses_bind (uses_ask trivial) fun _ => trivial

theorem store_auth_state_idle (username : String) (state : PasskeyAuthentication) :
    (PasskeyState.store_auth_state username state).Uses Idle :=
  Prog.uses_bind now_secs_idle fun _ => Prog.uses_bind (uses_ask trivial) fun _ => trivial

theorem register_start_idle (session : Identity) :
    (passkey_register.start c wa session).Uses Idle := by
  refine Prog.uses_bind (user_idle _) fun user => ?_
  rcases user with _ | user
  · trivial
  refine Prog.uses_bind (credentials_idle wa _) fun existing => ?_
  rcases existing with _ | existing
  · trivial
  refine Prog.uses_bind (uses_ask trivial) fun challenge => ?_
  change Except String String at challenge
  rcases challenge with _ | challenge
  · trivial
  · exact Prog.uses_bind (store_reg_state_idle c _ _) fun _ => trivial

theorem login_start_idle {p : Handler HttpResponse} {username : String}
    (hp : passkey_login.start wa username = p) : p.Uses Idle := by
  subst hp
  unfold passkey_login.start
  generalize trim username = name
  dsimp only
  split
  · trivial
  refine Prog.uses_bind (username_idle _) fun user => ?_
  rcases user with _ | user
  · trivial
  refine Prog.uses_bind (credentials_idle wa _) fun credentials => ?_
  rcases credentials with _ | credentials
  · trivial
  dsimp only
  split
  · trivial
  refine Prog.uses_bind (uses_ask trivial) fun challenge => ?_
  change Except String String at challenge
  rcases challenge with _ | challenge
  · trivial
  · exact Prog.uses_bind (store_auth_state_idle _ _) fun _ => trivial

end Ceremonies

/-! ### Single statements -/

section Statements

variable {ε β τ : Type} {T : Relation τ} {q : τ → Bool} {err : DbError → ε}

/-- A new row, or no more than before. -/
theorem goesE_posts {mk : Uuid → τ} (hl : Halfway call l) :
    GoesE (answering Honest) call (attempt err (insert_into T .pool mk)) l
      (fun l' _ => Posted l') fun l' _ => Halfway call l' := by
  let P : Protocol Op Op.Reply (ServiceCall Reg Cred) HttpResponse := answering Honest
  let new : Nat → Record := fun n => T.inj (mk n)
  have hnew : ∀ row, (l.add new row).opened = [.added new row] := by
    intro row
    rw [Deeds.add, hl.opened]
    rfl
  have hinsert : ∀ row, P.Step call l (.sql (.insert .tx new T.clashes)) (Except.ok row)
      (l.add new row) := fun _ => rfl
  have hcommit : ∀ row, P.Step call (l.add new row) (.sql .commit) (Except.ok ())
      (l.add new row).settle := fun _ => rfl
  have hcommit_fail : ∀ row e, P.Step call (l.add new row) (.sql .commit) (Except.error e) l.drop :=
    fun _ _ => rfl
  have hfail : ∀ e, P.Step call l (.sql (.insert .tx new T.clashes)) (Except.error e) l :=
    fun _ => rfl
  refine goesE_insert_pool hinsert hfail hcommit hcommit_fail rfl ?_ ?_ fun _ => ⟨rfl, hl.kept⟩
  · intro row a _
    refine ⟨new, row, List.mem_append_left _ ?_⟩
    rw [hnew row]
    exact List.mem_cons_self
  -- what does not read as a row of the table was not inserted
  · intro row hnone
    refine ⟨rfl, fun x hx hreal => ?_⟩
    rcases List.mem_append.mp hx with hx | hx
    · rw [hnew row] at hx
      obtain rfl := List.mem_singleton.mp hx
      obtain ⟨n, rfl⟩ := hreal
      rw [T.prj_inj] at hnone
      cases hnone
    · exact hl.kept x hx hreal

/-- A change that a failure may leave behind. -/
theorem goesE_leaves {change : Record → Option Record} (hl : Halfway call l)
    (hleaves : ∀ row, Unfinished call (.changed (T.sel q) change row)) :
    GoesE (answering Honest) call (attempt err do
      let r ← ask (.sql (.write .pool (T.sel q) change))
      return T.decode r) l (fun l' _ => Halfway call l') fun l' _ => Halfway call l' := by
  refine goesE_rows hl.opened (fun rows => ⟨rfl, fun x hx hreal => ?_⟩) fun _ => hl
  rcases List.mem_append.mp hx with hx | hx
  · obtain ⟨row, -, rfl⟩ := List.mem_map.mp hx
    exact hleaves row
  · exact hl.kept x hx hreal

section Changed

variable {change : Record → Option Record} {rows : List Record}

/-- A statement that returns a row of the table has changed one. -/
theorem altered_of_found {a : τ} {found : List τ} (h : rows.filterMap T.prj = a :: found) :
    ∃ y ∈ rows.map (.changed (T.sel q) change) ++ l.kept, y.Alters := by
  obtain ⟨row, hrow, -⟩ : ∃ row ∈ rows, T.prj row = some a :=
    List.mem_filterMap.mp (h ▸ List.mem_cons_self)
  exact ⟨_, List.mem_append_left _ (List.mem_map_of_mem hrow), trivial⟩

/-- One that returns none has changed none. -/
theorem halfway_of_none (hl : Halfway call l)
    (hchange : ∀ a, ∃ b, (change (T.inj a)).getD (T.inj a) = T.inj b)
    (h : rows.filterMap T.prj = []) :
    Halfway call ⟨[], rows.map (.changed (T.sel q) change) ++ l.kept⟩ := by
  refine ⟨rfl, fun x hx hreal => ?_⟩
  rcases List.mem_append.mp hx with hx | hx
  · obtain ⟨row, hrow, rfl⟩ := List.mem_map.mp hx
    obtain ⟨r, hr, heq⟩ := hreal
    obtain ⟨a, rfl, -⟩ := T.sel_iff.mp hr
    obtain ⟨b, hb⟩ := hchange a
    have hnone := List.filterMap_eq_nil_iff.mp h row hrow
    rw [heq, hb, T.prj_inj] at hnone
    cases hnone
  · exact hl.kept x hx hreal

end Changed

/-- A transaction that has been given back. -/
theorem halfway_drop (h : ∀ x ∈ l.kept, x.Real → Unfinished call x) : Halfway call l.drop :=
  ⟨rfl, h⟩

end Statements

/-! ### The services -/

section Services

variable (c : Crates) (jwt_svc : JwtService)

theorem register_posts (username email password : String) (hl : Halfway call l) :
    GoesE (answering Honest) call (UserService.register c username email password) l
      (fun l' _ => Posted l') fun l' _ => Halfway call l' := by
  unfold UserService.register
  by_cases h : (username.isEmpty || password.isEmpty) = true
  · rw [if_pos h]
    exact goesE_throw hl
  rw [if_neg h]
  by_cases hs : c.zxcvbn_score password < 3
  · rw [if_pos hs]
    exact goesE_throw hl
  rw [if_neg hs]
  refine goesE_after (bcrypt_idle password) (fun hash => ?_) fun _ => hl
  refine goesE_bind (goesE_after (uses_lift now_idle) (fun now => ?_) fun _ => hl)
  exact goesE_mono (goesE_posts hl) (fun _ _ h => goesE_ret h) fun _ _ h => h

theorem issue_session_posts (user : SessionUser) (params : SessionParams) (hl : Halfway call l) :
    GoesE (answering Honest) call (SessionService.issue_session user params) l
      (fun l' _ => Posted l') fun l' _ => Halfway call l' := by
  refine goesE_after (uses_lift now_idle) (fun now => ?_) fun _ => hl
  exact goesE_bind (goesE_mono (goesE_posts hl) (fun _ _ h => goesE_ret h) fun _ _ h => h)

/-- What comes before the token's row does nothing to any row. -/
theorem issue_token_pair_after {ex : Executor} {user_id : Uuid} {issuer : String}
    {Q : Deeds Record → Prop} {E : Deeds Record → JwtError → Prop}
    (hinsert : ∀ mk, GoesE (answering Honest) call
      (attempt JwtError.Database (insert_into refresh_tokens ex mk)) l (fun l' _ => Q l') E)
    (hE : ∀ e, E l e) :
    GoesE (answering Honest) call (jwt_svc.issue_token_pair_with ex user_id issuer) l
      (fun l' _ => Q l') E := by
  refine goesE_after (uses_attempt (uses_ask trivial)) (fun access => ?_) hE
  refine goesE_after (uses_lift raw_token_idle) (fun raw => ?_) hE
  refine goesE_after (uses_lift now_idle) (fun now => ?_) hE
  refine goesE_after (uses_lift now_idle) (fun now' => ?_) hE
  exact goesE_bind (goesE_mono (hinsert _) (fun _ _ h => goesE_ret h) fun _ _ h => h)

theorem change_password_leaves {cookie : String} {req : ChangePasswordRequest}
    {params : SessionParams} (cmd : ChangePasswordCmd)
    (hcall : call = .route (.change_password cookie req params))
    (hl : Halfway call l) : GoesE (answering Honest) call (UserService.change_password c cmd) l
      (fun l' _ => Halfway call l') fun l' _ => Halfway call l' := by
  unfold UserService.change_password
  dsimp only
  split
  · exact goesE_throw hl
  refine goesE_after (password_hash_idle _) (fun hash => ?_) fun _ => hl
  split
  · exact goesE_throw hl
  refine goesE_after (bcrypt_idle _) (fun new_hash => ?_) fun _ => hl
  refine goesE_bind (goesE_mono (goesE_leaves hl fun row => ?_)
    (fun _ _ h => goesE_ret h) fun _ _ h => h)
  exact hcall ▸ .password _ _ row

/-- Deleting a session of whatever user. -/
structure Ended (l l' : Deeds Record) : Prop where
  opened : l'.opened = []
  kept : ∀ x ∈ l'.kept, x ∈ l.kept ∨ ∃ q f row, x = .changed (sessions.sel q) f row

theorem session_ended (id : Uuid) (hl : l.opened = []) :
    GoesE (answering Honest) call (SessionRepo.delete id) l (fun l' _ => Ended l l')
      fun l' e => Ended l l' ∧ (e = .database → l' = l) := by
  refine goesE_bind (goesE_rows hl (fun rows => ?_)
    fun _ => ⟨⟨hl, fun _ hx => .inl hx⟩, fun _ => rfl⟩)
  have hended : Ended l ⟨[], rows.map (.changed (sessions.sel fun s => s.id == id) Relation.del) ++
      l.kept⟩ := by
    refine ⟨rfl, fun x hx => ?_⟩
    rcases List.mem_append.mp hx with hx | hx
    · obtain ⟨row, -, rfl⟩ := List.mem_map.mp hx
      exact .inr ⟨_, _, row, rfl⟩
    · exact .inl hx
  cases rows.filterMap sessions.prj with
  | nil => exact goesE_throw ⟨hended, fun h => by cases h⟩
  | cons s rest => exact goesE_ret hended

/-- Deleting one that must be there. -/
theorem session_deleted (id : Uuid) (hl : Halfway call l) :
    GoesE (answering Honest) call (SessionRepo.delete id) l (fun l' _ => ∃ y ∈ l'.kept, y.Alters)
      fun l' _ => Halfway call l' := by
  refine goesE_bind (goesE_rows hl.opened (fun rows => ?_) fun _ => hl)
  cases hrows : rows.filterMap sessions.prj with
  | nil => exact goesE_throw (halfway_of_none hl (fun a => ⟨a, rfl⟩) hrows)
  | cons s rest => exact goesE_ret (altered_of_found hrows)

theorem revoke_all_leaves {cookie : String} {req : ChangePasswordRequest} {params : SessionParams}
    (sub : Uuid) (hcall : call = .route (.change_password cookie req params))
    (hl : Halfway call l) : GoesE (answering Honest) call (SessionService.revoke_all_for_user sub) l
      (fun l' _ => Halfway call l') fun l' _ => Halfway call l' := by
  have hended : ∀ {l l' : Deeds Record}, Halfway call l → Ended l l' → Halfway call l' := by
    intro l l' hl h
    refine ⟨h.opened, fun x hx hreal => ?_⟩
    rcases h.kept x hx with hold | ⟨q, f, row, rfl⟩
    · exact hl.kept x hold hreal
    · exact hcall ▸ .sessions q f row
  have hall : ∀ (found : List Session) (l : Deeds Record), Halfway call l →
      Goes (answering Honest) call (SessionService.delete_each found) l
        fun l' _ => Halfway call l' := by
    intro found
    induction found with
    | nil => exact fun l hl => goes_ret hl
    | cons s rest ih =>
        intro l hl
        exact goes_run (goesE_mono (session_ended s.id hl.opened)
          (fun l' _ h => ih l' (hended hl h)) fun l' _ h => ih l' (hended hl h.1))
  refine goesE_after (uses_attempt (sessions_idle sub)) (fun found => ?_) fun _ => hl
  exact goesE_lift (hall found l hl)

theorem token_revoked (hash : String) (hl : Halfway call l) :
    GoesE (answering Honest) call (JwtService.revoke_refresh_token_by_hash hash) l
      (fun _ _ => True) fun l' e => e = .RefreshTokenNotFound ∨ Halfway call l' := by
  refine goesE_bind (goesE_rows hl.opened (fun rows => ?_) fun _ => .inr hl)
  by_cases hnone : (rows.filterMap refresh_tokens.prj).length = 0
  · rw [if_pos hnone]
    exact goesE_throw (.inl rfl)
  · rw [if_neg hnone]
    exact goesE_ret trivial

/-! ### Transactions -/

theorem publish_posts (payload : ChallengeRequested) (hl : Halfway call l) :
    GoesE (answering Honest) call (PasswdlessService.publish_challenge payload) l
      (fun l' _ => Posted l') fun l' _ => Halfway call l' := by
  let P : Protocol Op Op.Reply (ServiceCall Reg Cred) HttpResponse := answering Honest
  let new : Nat → Record := fun _ =>
    outbox.inj (.challenge_requested payload.token payload.link payload.nonce)
  have hinsert : ∀ row, P.Step call l (.sql (.insert .tx new outbox.clashes)) (Except.ok row)
      (l.add new row) := fun _ => rfl
  have hfail : ∀ e, P.Step call l (.sql (.insert .tx new outbox.clashes)) (Except.error e) l :=
    fun _ => rfl
  refine goesE_after (uses_attempt (uses_ask trivial)) (fun _ => ?_) fun _ => hl
  refine goesE_given_back (goesE_bind (goesE_insert_tx hinsert hfail ?_ ?_ ?_))
  · intro row a _
    refine goesE_settle ?_ fun _ => halfway_drop hl.kept
    exact ⟨new, row, List.mem_append_left _ (List.mem_append_right _ List.mem_cons_self)⟩
  · exact fun _ _ => halfway_drop hl.kept
  · exact fun _ => halfway_drop hl.kept

theorem refresh_posts {p : Service JwtError JwtResult} {cmd : RefreshCmd}
    (hp : jwt_svc.refresh cmd = p) (hl : Halfway call l) : GoesE (answering Honest) call p l
      (fun l' _ => Posted l') fun l' _ => Halfway call l' := by
  have hdrop : ∀ {l' : Deeds Record}, l'.kept = l.kept → Halfway call l'.drop := fun h =>
    halfway_drop (h ▸ hl.kept)
  subst hp
  unfold JwtService.refresh
  generalize trim cmd.refresh_token = raw
  dsimp only
  by_cases hempty : raw.isEmpty = true
  · rw [if_pos hempty]
    exact goesE_throw hl
  rw [if_neg hempty]
  refine goesE_after (uses_attempt (uses_ask trivial)) (fun _ => goesE_given_back ?_) fun _ => hl
  refine goesE_after (refresh_token_idle _) (fun row => ?_) fun _ => hdrop rfl
  by_cases hrevoked : row.revoked = true
  · rw [if_pos hrevoked]
    exact goesE_throw (hdrop rfl)
  rw [if_neg hrevoked]
  refine goesE_after (uses_lift now_idle) (fun now => ?_) fun _ => hdrop rfl
  by_cases hexpired : row.expires_at < (now : Time)
  · rw [if_pos hexpired]
    exact goesE_throw (hdrop rfl)
  rw [if_neg hexpired]
  refine goesE_after (uses_attempt (uses_ask trivial)) (fun user => ?_) fun _ => hdrop rfl
  -- the old token is taken, and given back unless the new one is committed with it
  have hdelete : (JwtService.delete_refresh_token_by_hash .tx
      (hash_token jwt_svc.crates raw)).run.Uses Pending :=
    Prog.uses_bindE (uses_attempt (uses_delete trivial)) fun _ => trivial
  refine goesE_bind (goesE_mono (goesE_pending hdelete) (fun l₁ _ h₁ => ?_) fun _ _ h => hdrop h)
  let P : Protocol Op Op.Reply (ServiceCall Reg Cred) HttpResponse := answering Honest
  have hpost : ∀ mk : Uuid → RefreshToken, GoesE (answering Honest) call
      (attempt JwtError.Database (insert_into refresh_tokens .tx mk)) l₁
      (fun l' _ => (∃ new row, .added new row ∈ l'.opened) ∧ l'.kept = l.kept)
      fun l' _ => Halfway call l'.drop := by
    intro mk
    let new : Nat → Record := fun n => refresh_tokens.inj (mk n)
    have hinsert : ∀ row, P.Step call l₁ (.sql (.insert .tx new refresh_tokens.clashes))
        (Except.ok row) (l₁.add new row) := fun _ => rfl
    have hfail : ∀ e, P.Step call l₁ (.sql (.insert .tx new refresh_tokens.clashes))
        (Except.error e) l₁ := fun _ => rfl
    exact goesE_insert_tx hinsert hfail
      (fun row _ _ => ⟨⟨new, row, List.mem_append_right _ List.mem_cons_self⟩, h₁⟩)
      (fun _ _ => hdrop h₁) fun _ => hdrop h₁
  refine goesE_bind (goesE_mono (issue_token_pair_after jwt_svc hpost fun _ => hdrop h₁)
    (fun l₂ _ h₂ => ?_) fun _ _ h => h)
  obtain ⟨⟨new, row, hrow⟩, hkept⟩ := h₂
  refine goesE_bind (goesE_settle (goesE_ret ?_) fun _ => hdrop hkept)
  exact ⟨new, row, List.mem_append_left _ hrow⟩

theorem confirm_reset_leaves (cmd : ConfirmPasswordResetCmd) (hl : Halfway call l) :
    GoesE (answering Honest) call (UserService.confirm_password_reset c cmd) l
      (fun _ _ => True) fun l' _ => Halfway call l' := by
  have hdrop : ∀ {l' : Deeds Record}, l'.kept = l.kept → Halfway call l'.drop := fun h =>
    halfway_drop (h ▸ hl.kept)
  unfold UserService.confirm_password_reset
  dsimp only
  by_cases hweak : c.zxcvbn_score cmd.new_password < 3
  · rw [if_pos hweak]
    exact goesE_throw hl
  rw [if_neg hweak]
  refine goesE_after (uses_lift now_idle) (fun now => ?_) fun _ => hl
  refine goesE_after (uses_attempt (uses_ask trivial)) (fun _ => goesE_given_back ?_) fun _ => hl
  refine goesE_bind (goesE_mono (goesE_pending (uses_attempt (uses_update trivial)))
    (fun l₁ found h₁ => ?_) fun _ _ h => hdrop h)
  cases found with
  | nil => exact goesE_throw (hdrop h₁)
  | cons reset rest =>
      refine goesE_after (bcrypt_idle _) (fun new_hash => ?_) fun _ => hdrop h₁
      refine goesE_bind (goesE_mono (goesE_pending (uses_attempt (uses_update trivial)))
        (fun l₂ _ h₂ => ?_) fun _ _ h => hdrop (h.trans h₁))
      exact goesE_bind (goesE_settle (goesE_ret trivial) fun _ => hdrop (h₂.trans h₁))

end Services

/-! ### The handlers -/

section Handlers

variable (c : Crates) (jwt_svc : JwtService) (wa : Webauthn Reg Cred)

/-- What has been committed stays committed, whatever follows. -/
theorem goes_posted {β : Type} {p : Handler β} (h : Posted l) :
    Goes (answering Honest) call p l fun l' _ => Posted l' := by
  have hstep : ∀ (l : Deeds Record) (o : Op) (r : o.Reply), Posted l →
      Posted (deeds_step l o r) := by
    rintro l o r ⟨mk, row, hrow⟩
    refine ⟨mk, row, ?_⟩
    cases o with
    | sql q =>
        cases q with
        | commit =>
            cases r with
            | ok u => exact List.mem_append_right _ hrow
            | error e => exact hrow
        | insert | visit => cases r <;> exact hrow
        | _ => exact hrow
    | update id dto =>
        cases r with
        | ok u => exact List.mem_append_right _ hrow
        | error e => exact hrow
    | _ => exact hrow
  exact Protocol.folding_keeps (I := Posted) hstep h

/-- A route that only reads may answer what it likes. -/
theorem idle_answers {p : Handler HttpResponse} (hp : p.Uses Idle) (hl : Halfway call l)
    (hposts : ¬ call.Posts) (hedits : ¬ call.Edits) : Answers call p l :=
  goes_mono (goes_idle hp) fun _ _ h => h ▸ hl.answer hposts hedits

/-- A route that has gone well need not tell what it has done. -/
theorem anything_answered {l : Deeds Record} (hs : resp.status < 400) (hposts : ¬ call.Posts)
    (hedits : ¬ call.Edits) : Honest call l resp :=
  ⟨fun hge => absurd hs (Nat.not_lt.mpr hge), fun _ h => absurd h hposts,
    fun _ h => absurd h hedits⟩

theorem middleware_answers {cookie : String} {handler : Identity → Handler HttpResponse}
    (hl : Halfway call l) (h : ∀ id, Answers call (handler id) l) :
    Answers call (session_middleware cookie handler) l := by
  refine goes_after (uses_ask trivial) fun session => ?_
  change Option Identity at session
  cases session with
  | none => exact goes_ret (hl.refusal (by decide))
  | some id => exact h id

theorem start_session_answers (user : User) (params : SessionParams) (hl : Halfway call l)
    (hposts : call.Posts) : Answers call (handlers.start_session c user params) l := by
  refine goes_after (session_user_idle _) fun su => goes_run ?_
  exact goesE_mono (issue_session_posts su params hl)
    (fun _ _ h => goes_ret (h.acceptance hposts (by show 200 < 400; decide)))
    fun _ e h => goes_ret (h.refusal (auth_error_refuses e))

theorem register_answers {p : Handler HttpResponse} {req : RegisterRequest}
    (hp : handlers.register c req = p) (hl : Halfway call l) (hposts : call.Posts) :
    Answers call p l := by
  subst hp
  unfold handlers.register
  by_cases hvalid : (!req.validate c) = true
  · rw [if_pos hvalid]
    exact goes_ret (hl.refusal (by decide))
  rw [if_neg hvalid]
  exact goes_run (goesE_mono (register_posts c _ _ _ hl)
    (fun _ _ h => goes_ret (h.acceptance hposts (by show 201 < 400; decide)))
    fun _ e h => goes_ret (h.refusal (auth_error_refuses e)))

/-- Both logins with a password. -/
theorem password_login_answers {p : Handler HttpResponse} {find : Service AuthError User}
    (hfind : find.run.Uses Idle) {params : SessionParams}
    (hp : (do
      match ← find.run with
      | .ok user => handlers.start_session c user params
      | .error e => return auth_error_to_response e) = p)
    (hl : Halfway call l) (hposts : call.Posts) : Answers call p l := by
  subst hp
  refine goes_after hfind fun r => ?_
  cases r with
  | error e => exact goes_ret (hl.refusal (auth_error_refuses e))
  | ok user => exact start_session_answers c user params hl hposts

theorem change_password_answers {cookie : String} (user_session : Identity)
    (req : ChangePasswordRequest) (params : SessionParams)
    (hcall : call = .route (.change_password cookie req params)) (hl : Halfway call l) :
    Answers call (handlers.change_password c user_session req params) l := by
  have hposts : call.Posts := hcall ▸ trivial
  refine goes_then (change_password_leaves c _ hcall hl) (fun l₁ _ h₁ => ?_)
    fun _ e h => goes_ret (h.refusal (auth_error_refuses e))
  -- whether the sessions have been ended or not
  refine goes_bind (goes_mono (goes_of_both (revoke_all_leaves user_session.sub hcall h₁)) ?_)
  refine fun l₂ _ h₂ => goes_after (user_idle _) fun user => ?_
  cases user with
  | error e => exact goes_ret (h₂.refusal (auth_error_refuses e))
  | ok user =>
      refine goes_after (session_user_idle _) fun su => goes_run ?_
      refine goesE_mono (issue_session_posts su params h₂) (fun l₃ _ h₃ => ?_)
        fun _ e h => goes_ret (h.refusal (auth_error_refuses e))
      refine goes_bind (goes_mono (goes_posted h₃) fun l₄ _ h₄ => ?_)
      exact goes_ret (h₄.acceptance hposts (by show 200 < 400; decide))

theorem request_reset_answers (req : PasswordResetRequest) (hposts : ¬ call.Posts)
    (hedits : ¬ call.Edits) : Answers call (handlers.request_password_reset c req) l :=
  goes_bind (goes_anyhow fun _ _ =>
    goes_ret (anything_answered (by show 200 < 400; decide) hposts hedits))

theorem confirm_reset_answers (payload : PasswordResetConfirmRequest) (hl : Halfway call l)
    (hposts : ¬ call.Posts) (hedits : ¬ call.Edits) :
    Answers call (handlers.confirm_password_reset c payload) l := by
  refine goes_run (goesE_mono (confirm_reset_leaves c _ hl) (fun _ id _ => ?_)
    fun _ e h => goes_ret (h.refusal (auth_error_refuses e)))
  exact goes_bind (goes_anyhow fun _ _ => goes_bind (goes_anyhow fun _ _ =>
    goes_ret (anything_answered (by show 200 < 400; decide) hposts hedits)))

theorem logout_answers (cookie : String) (hl : Halfway call l) (hposts : ¬ call.Posts)
    (hedits : ¬ call.Edits) : Answers call (handlers.logout c (some cookie)) l := by
  have hok : ∀ l, Honest call l
      ⟨200, some removal_cookie, ApiResponse.success .unit "Logged out successfully"⟩ := fun _ =>
    anything_answered (by show 200 < 400; decide) hposts hedits
  unfold handlers.logout SessionService.logout
  dsimp only
  cases c.uuid_parse cookie with
  | none => exact goes_ret (hl.refusal (by decide))
  | some id =>
      refine goes_bind (goes_run (goesE_mono (session_ended id hl.opened)
        (fun l' _ _ => goes_ret (goes_ret (hok l'))) fun l' e h => ?_))
      cases e with
      | RowNotFound => exact goes_ret (goes_ret (hok l'))
      | database =>
          obtain rfl := h.2 rfl
          exact goes_ret (goes_ret (hl.refusal (by decide)))

theorem delete_session_answers (id : Uuid) (sess : Identity) (hl : Halfway call l)
    (hposts : ¬ call.Posts) (hedits : ¬ call.Edits) :
    Answers call (handlers.delete_session id sess) l := by
  have hok : ∀ l, Honest call l (.finish 200) := fun _ =>
    anything_answered (by show 200 < 400; decide) hposts hedits
  refine goes_after (session_idle id) fun found => ?_
  rcases found with (_ | _) | session
  · exact goes_ret (hl.refusal (by decide))
  · exact goes_ret (hl.refusal (by decide))
  dsimp only
  by_cases howner : session.sub ≠ sess.sub
  · rw [if_pos howner]
    exact goes_ret (hl.refusal (by decide))
  rw [if_neg howner]
  refine goes_run (goesE_mono (session_ended id hl.opened) (fun l' _ _ => goes_ret (hok l'))
    fun l' e h => ?_)
  cases e with
  | RowNotFound => exact goes_ret (hok l')
  | database =>
      obtain rfl := h.2 rfl
      exact goes_ret (hl.refusal (by decide))

theorem jwt_answers (user : Identity) (hl : Halfway call l) (hposts : call.Posts) :
    Answers call (handlers.jwt jwt_svc user) l :=
  goes_run (goesE_mono (issue_token_pair_after jwt_svc (fun _ => goesE_posts hl) fun _ => hl)
    (fun _ _ h => goes_ret (h.acceptance hposts (by show 200 < 400; decide)))
    fun _ _ h => goes_ret (h.refusal (by decide)))

theorem refresh_answers {p : Handler HttpResponse} {cmd : RefreshCmd}
    (hp : handlers.refresh jwt_svc cmd = p) (hl : Halfway call l) (hposts : call.Posts) :
    Answers call p l := by
  subst hp
  unfold handlers.refresh
  generalize hexchange : jwt_svc.refresh cmd = exchange
  exact goes_then (refresh_posts jwt_svc hexchange hl)
    (fun _ _ h => goes_ret (h.acceptance hposts (by show 200 < 400; decide)))
    fun _ _ h => goes_ret (h.refusal (by decide))

theorem jwt_logout_answers {p : Handler HttpResponse} {cmd : LogoutCmd}
    (hp : handlers.jwt_logout jwt_svc cmd = p) (hl : Halfway call l) (hposts : ¬ call.Posts)
    (hedits : ¬ call.Edits) : Answers call p l := by
  subst hp
  have hok : ∀ l, Honest call l (.json 200 (ApiResponse.success .unit "Logged out successfully")) :=
    fun _ => anything_answered (by show 200 < 400; decide) hposts hedits
  unfold handlers.jwt_logout JwtService.logout
  generalize trim cmd.refresh_token = raw
  dsimp only
  by_cases hempty : raw.isEmpty = true
  · rw [if_pos hempty]
    exact goes_ret (hl.refusal (by decide))
  rw [if_neg hempty]
  refine goes_bind (goes_run (goesE_mono (token_revoked _ hl)
    (fun l' _ _ => goes_ret (goes_ret (hok l'))) fun l' e h => ?_))
  rcases h with rfl | h
  · exact goes_ret (goes_ret (hok l'))
  · cases e with
    | RefreshTokenNotFound => exact goes_ret (goes_ret (hok l'))
    | _ => exact goes_ret (goes_ret (h.refusal (by decide)))

/-- An update through the viewset, or what a confirmed challenge sets. -/
theorem goes_update {α : Type} {id : Uuid} {dto : UpdateUser}
    {g : Except ApiError UserResponse → Handler α} {Q : Deeds Record → α → Prop}
    (hok : ∀ u, Goes (answering Honest) call (g (.ok u))
      (l.rewrite (users.sel fun u => u.id == id)).settle Q)
    (herror : ∀ e, Goes (answering Honest) call (g (.error e)) l Q) :
    Goes (answering Honest) call (ask (.update id dto) >>= g) l Q := by
  refine goes_bind (goes_ask ?_)
  intro r
  cases r with
  | ok u => exact ⟨_, rfl, hok u⟩
  | error e => exact ⟨l, rfl, herror e⟩

/-- A change has been made. -/
theorem edit_answered {l : Deeds Record} (h : ∃ y ∈ l.kept, y.Alters) (hs : resp.status < 400)
    (hposts : ¬ call.Posts) : Honest call l resp :=
  ⟨fun hge => absurd hs (Nat.not_lt.mpr hge), fun _ hp => absurd hp hposts, fun _ _ => h⟩

section Viewsets

variable (hview : c.ViewsetDocumented)

include hview

theorem viewset_refusal (e : ApiError) (hl : Halfway call l) :
    Honest call l (viewset_error c e) := hl.refusal (hview.failure e)

theorem update_user_answers (id : Uuid) (dto : UpdateUser) (hl : Halfway call l)
    (hposts : ¬ call.Posts) : Answers call (handlers.update_user c id dto) l := by
  refine goes_update (fun u => goes_ret ?_) fun e => goes_ret (viewset_refusal c hview e hl)
  have hmem : .rewrote (users.sel fun u => u.id == id) ∈
      (l.rewrite (users.sel fun u => u.id == id)).settle.kept :=
    List.mem_append_left _ (List.mem_append_right _ List.mem_cons_self)
  exact edit_answered ⟨_, hmem, trivial⟩ (hview.success _ nofun) hposts

theorem update_session_answers (id : Uuid) (change : SessionChange) (hl : Halfway call l)
    (hposts : ¬ call.Posts) : Answers call (viewset.update_session c id change) l := by
  refine goes_bind (goes_bind (goes_ask (Protocol.walks_mono (walks_rows hl.opened) ?_)))
  intro l' r hr
  cases r with
  | error e =>
      obtain rfl := hr
      exact goes_ret (goes_ret (viewset_refusal c hview _ hl))
  | ok rows =>
      obtain rfl := hr
      refine goes_ret ?_
      dsimp only [Relation.decode]
      cases hrows : rows.filterMap sessions.prj with
      | nil =>
          have hleft : Halfway call ⟨[], rows.map (.changed (sessions.sel fun s => s.id == id)
              (sessions.set change.1)) ++ l.kept⟩ :=
            halfway_of_none hl (fun s => ⟨change.1 s, by rw [sessions.set_inj]; rfl⟩) hrows
          exact goes_ret (viewset_refusal c hview _ hleft)
      | cons s rest =>
          exact goes_ret (edit_answered (altered_of_found hrows) (hview.success _ nofun) hposts)

theorem viewset_delete_session_answers (id : Uuid) (hl : Halfway call l) (hposts : ¬ call.Posts) :
    Answers call (viewset.delete_session c id) l := by
  refine goes_run (goesE_mono (session_deleted id hl)
    (fun _ _ h => goes_ret (edit_answered h (hview.success _ nofun) hposts)) fun l' e h => ?_)
  cases e <;> exact goes_ret (viewset_refusal c hview _ h)

theorem delete_user_answers {cookie : String} {id : Uuid} (hcall : call = .delete_user cookie id)
    (hl : Halfway call l) : Answers call (handlers.delete_user c id) l := by
  have hasks : ¬ call.Posts ∧ ¬ call.Edits := by
    subst hcall
    exact ⟨fun h => h, fun h => h⟩
  refine goes_bind (goes_bind (goes_ask (Protocol.walks_mono (walks_rows hl.opened) ?_)))
  intro l' r hr
  cases r with
  | error e =>
      obtain rfl := hr
      exact goes_ret (goes_ret (viewset_refusal c hview _ hl))
  | ok rows =>
      obtain rfl := hr
      refine goes_ret ?_
      cases hrows : rows.filterMap users.prj with
      | nil =>
          have hleft : Halfway call
              ⟨[], rows.map (.changed (Cascades id) Relation.del) ++ l.kept⟩ := by
            refine ⟨rfl, fun x hx hreal => ?_⟩
            rcases List.mem_append.mp hx with hx | hx
            · obtain ⟨row, hrow, rfl⟩ := List.mem_map.mp hx
              exact hcall ▸ .orphan (List.filterMap_eq_nil_iff.mp hrows row hrow)
            · exact hl.kept x hx hreal
          rw [Relation.decode, hrows]
          exact goes_ret (viewset_refusal c hview _ hleft)
      | cons u rest =>
          rw [Relation.decode, hrows]
          exact goes_ret (anything_answered (hview.success _ nofun) hasks.1 hasks.2)

omit hview in
theorem read_answers (what : ViewsetRead) (hl : Halfway call l) (hposts : ¬ call.Posts)
    (hedits : ¬ call.Edits) : Answers call (viewset.read c what) l := by
  refine idle_answers ?_ hl hposts hedits
  cases what with
  | users => exact Prog.uses_bind (uses_ask trivial) fun r => by cases r <;> trivial
  | user id => exact Prog.uses_bind (uses_ask trivial) fun r => by cases r <;> trivial
  | new_user | new_session => trivial
  | sessions => exact Prog.uses_bind (uses_ask trivial) fun r => by cases r <;> trivial
  | session id =>
      exact Prog.uses_bind (session_idle id) fun r => by rcases r with (_ | _) | _ <;> trivial

end Viewsets

/-- The flag is set, or it is not. -/
theorem confirm_leaves {dto : UpdateUser} (id : Uuid)
    (hconfirms : ∀ q, Unfinished call (.rewrote (users.sel q))) (hl : Halfway call l) :
    Goes (answering Honest) call (ask (.update id dto)) l fun l' _ => Halfway call l' := by
  refine goes_ask ?_
  intro r
  cases r with
  | error e => exact ⟨l, rfl, hl⟩
  | ok u =>
      refine ⟨_, rfl, rfl, fun x hx hreal => ?_⟩
      rcases List.mem_append.mp hx with hx | hx
      · rw [Deeds.rewrite, hl.opened] at hx
        obtain rfl := List.mem_singleton.mp hx
        exact hconfirms _
      · exact hl.kept x hx hreal

theorem start_confirmed_session_answers (user_id : Uuid) (params : SessionParams)
    (hl : Halfway call l) (hposts : call.Posts)
    (hconfirms : ∀ q, Unfinished call (.rewrote (users.sel q))) :
    Answers call (handlers.start_confirmed_session c user_id params) l := by
  refine goes_after (user_idle _) fun user => ?_
  cases user with
  | error e => exact goes_ret (hl.refusal (by decide))
  | ok user =>
      refine goes_bind (goes_mono (confirm_leaves _ hconfirms hl) fun l' _ h' => ?_)
      refine goes_after (session_user_idle _) fun su => goes_run ?_
      exact goesE_mono (issue_session_posts su params h')
        (fun _ _ h => goes_ret (h.acceptance hposts (by show 200 < 400; decide)))
        fun _ e h => goes_ret (h.refusal (by decide))

theorem challenge_answers {p : Service AuthError User} (hp : p.run.Uses Idle) (hl : Halfway call l)
    (hposts : call.Posts) : Answers call (do
      match ← (challenge_of p).run with
      | .ok () => return .finish 201
      | .error e => return translate_error e) l := by
  refine goes_run ?_
  refine goesE_after (uses_lift hp) (fun r => ?_) fun e =>
    goes_ret (hl.refusal (translate_error_refuses e))
  cases r with
  | error e => exact goesE_throw (goes_ret (hl.refusal (translate_error_refuses _)))
  | ok user =>
      refine goesE_after (uses_lift (release_idle _)) (fun payload => ?_) fun e =>
        goes_ret (hl.refusal (translate_error_refuses e))
      exact goesE_mono (publish_posts payload hl)
        (fun _ _ h => goes_ret (h.acceptance hposts (by show 201 < 400; decide)))
        fun _ e h => goes_ret (h.refusal (translate_error_refuses e))

/-- Both confirmations of a challenge. -/
theorem confirmation_answers {p : Service PasswdlessError Uuid} (hp : p.run.Uses Idle)
    (params : SessionParams) (hl : Halfway call l) (hposts : call.Posts)
    (hconfirms : ∀ q, Unfinished call (.rewrote (users.sel q))) : Answers call (do
      match ← p.run with
      | .error e => return translate_error e
      | .ok user_id => handlers.start_confirmed_session c user_id params) l := by
  refine goes_after hp fun r => ?_
  cases r with
  | error e => exact goes_ret (hl.refusal (translate_error_refuses e))
  | ok user_id => exact start_confirmed_session_answers c user_id params hl hposts hconfirms

theorem username2userid_answers (username : String) (hl : Halfway call l) (hposts : ¬ call.Posts)
    (hedits : ¬ call.Edits) : Answers call (handlers.username2userid c username) l := by
  refine idle_answers (Prog.uses_bind select_idle fun rows => ?_) hl hposts hedits
  rcases rows with _ | _ | _ <;> trivial

theorem register_finish_answers (session : Identity) (label : Option String) (credential : Reg)
    (hl : Halfway call l) (hposts : call.Posts) :
    Answers call (passkey_register.finish c wa session label credential) l := by
  refine goes_after (take_reg_state_idle c _) fun reg_state => ?_
  cases reg_state with
  | none => exact goes_ret (hl.refusal (by decide))
  | some reg_state =>
      dsimp only
      cases wa.finish_passkey_registration credential reg_state with
      | error e => exact goes_ret (hl.refusal (by show 400 ≤ 400; decide))
      | ok passkey =>
          have hinsert : GoesE (answering Honest) call
              (CredsRepo.insert_credential wa session.sub passkey label) l
              (fun l' _ => Posted l') fun l' _ => Halfway call l' := by
            unfold CredsRepo.insert_credential
            dsimp only
            cases wa.to_string passkey with
            | none => exact goesE_throw hl
            | some data =>
                refine goesE_after (uses_lift now_idle) (fun now => ?_) fun _ => hl
                exact goesE_bind (goesE_mono (goesE_posts hl) (fun _ _ h => goesE_ret h)
                  fun _ _ h => h)
          exact goes_then hinsert
            (fun _ _ h => goes_ret (h.acceptance hposts (by show 200 < 400; decide)))
            fun _ _ h => goes_ret (h.refusal (by decide))

theorem remove_answers (session : Identity) (row_id : Uuid) (hl : Halfway call l)
    (hposts : ¬ call.Posts) : Answers call (passkey_register.remove session row_id) l := by
  refine goes_run (goesE_bind (goesE_rows hl.opened (fun rows => ?_) fun e =>
    goes_ret (hl.refusal (by decide))))
  refine goesE_ret ?_
  cases hrows : rows.filterMap passkey_credentials.prj with
  | nil => exact goes_ret ((halfway_of_none hl (fun k => ⟨k, rfl⟩) hrows).refusal (by decide))
  | cons k rest =>
      exact goes_ret (edit_answered (altered_of_found hrows) (by show 200 < 400; decide) hposts)

theorem refresh_counter_leaves {username : String} {credential : Cred} {params : SessionParams}
    (user_id : Uuid) (result : AuthenticationResult)
    (hcall : call = .route (.passkey_login_finish username credential params))
    (hl : Halfway call l) :
    Goes (answering Honest) call (passkey_login.refresh_counter wa user_id result) l
      fun l' _ => Halfway call l' := by
  refine goes_after (credentials_idle wa _) fun credentials => ?_
  cases credentials with
  | error e => exact goes_ret hl
  | ok credentials =>
      dsimp only
      cases credentials.find? fun k => k.cred_id == result.cred_id with
      | none => exact goes_ret hl
      | some cred =>
          dsimp only
          rcases wa.update_credential cred result with _ | ⟨_ | _, cred⟩
          · exact goes_ret hl
          · exact goes_ret hl
          have hupdate : GoesE (answering Honest) call (CredsRepo.update_credential wa cred) l
              (fun l' _ => Halfway call l') fun l' _ => Halfway call l' := by
            unfold CredsRepo.update_credential
            dsimp only
            cases wa.to_string cred with
            | none => exact goesE_throw hl
            | some data =>
                refine goesE_after (uses_lift now_idle) (fun now => ?_) fun _ => hl
                refine goesE_bind (goesE_mono (goesE_leaves hl fun row => ?_)
                  (fun _ _ h => goesE_ret h) fun _ _ h => h)
                exact hcall ▸ .passkey _ _ row
          exact goes_then hupdate (fun _ _ h => goes_ret h) fun _ _ h => goes_ret h

theorem login_finish_answers {p : Handler HttpResponse} {username : String} {credential : Cred}
    {params : SessionParams} (hp : passkey_login.finish c wa username credential params = p)
    (hcall : call = .route (.passkey_login_finish username credential params))
    (hl : Halfway call l) : Answers call p l := by
  subst hp
  have hposts : call.Posts := hcall ▸ trivial
  unfold passkey_login.finish
  generalize trim username = name
  refine goes_after (username_idle _) fun user => ?_
  cases user with
  | error e => exact goes_ret (hl.refusal (by decide))
  | ok user =>
      refine goes_after (take_auth_state_idle _) fun auth_state => ?_
      cases auth_state with
      | none => exact goes_ret (hl.refusal (by decide))
      | some auth_state =>
          dsimp only
          cases wa.finish_passkey_authentication credential auth_state with
          | error e => exact goes_ret (hl.refusal (by show 400 ≤ 400; decide))
          | ok result =>
              refine goes_bind (goes_mono (refresh_counter_leaves wa user.id result hcall hl) ?_)
              exact fun l' _ h => start_session_answers c user params h hposts

/-- **Every call answers true to its deeds.** -/
theorem answers_truly (hview : jwt_svc.crates.ViewsetDocumented) (call : ServiceCall Reg Cred) :
    (answering Honest).Follows call ((whole_service jwt_svc wa).code call) := by
  have hl : Halfway call .blank := halfway_blank
  -- where a handler looks into its text first, it is better not run by the unifier
  change Answers call (call.handler jwt_svc wa) .blank
  cases call with
  | username2userid username => exact username2userid_answers _ username hl id id
  | delete_user cookie id =>
      exact middleware_answers hl fun _ => delete_user_answers _ hview rfl hl
  | update_session cookie id change =>
      exact middleware_answers hl fun _ =>
        update_session_answers _ hview id change hl fun h => h
  | delete_session cookie id =>
      exact middleware_answers hl fun _ =>
        viewset_delete_session_answers _ hview id hl fun h => h
  | read cookie what =>
      exact middleware_answers hl fun _ => read_answers _ what hl (fun h => h) fun h => h
  | route req =>
      cases req with
      | register req =>
          generalize hp : ServiceCall.handler jwt_svc wa (.route (.register req)) = p
          exact register_answers _ hp hl trivial
      | login req params =>
          generalize hp : ServiceCall.handler jwt_svc wa (.route (.login req params)) = p
          exact password_login_answers _ (password_login_idle _ _) hp hl trivial
      | username_login req params =>
          generalize hp : ServiceCall.handler jwt_svc wa (.route (.username_login req params)) = p
          exact password_login_answers _ (username_login_idle _ _) hp hl trivial
      | request_password_reset req => exact request_reset_answers _ req id id
      | confirm_password_reset payload => exact confirm_reset_answers _ payload hl id id
      | jwt_logout cmd =>
          generalize hp : ServiceCall.handler jwt_svc wa (.route (.jwt_logout cmd)) = p
          exact jwt_logout_answers jwt_svc hp hl id id
      | refresh cmd =>
          generalize hp : ServiceCall.handler jwt_svc wa (.route (.refresh cmd)) = p
          exact refresh_answers jwt_svc hp hl trivial
      | jwt cookie => exact middleware_answers hl fun user => jwt_answers jwt_svc user hl trivial
      | logout cookie => exact middleware_answers hl fun _ => logout_answers _ cookie hl id id
      | account cookie => exact middleware_answers hl fun _ => idle_answers trivial hl id id
      | change_password cookie req params =>
          exact middleware_answers hl fun user => change_password_answers _ user req params rfl hl
      | get_sessions cookie =>
          refine middleware_answers hl fun user => idle_answers ?_ hl id id
          exact Prog.uses_bind (sessions_idle _) fun r => by cases r <;> trivial
      | delete_session cookie id =>
          exact middleware_answers hl fun user =>
            delete_session_answers id user hl (fun h => h) fun h => h
      | update_user cookie id dto =>
          exact middleware_answers hl fun _ => update_user_answers _ hview id dto hl fun h => h
      | challenge1 email => exact challenge_answers (email_idle email) hl trivial
      | challenge2 username => exact challenge_answers (username_idle username) hl trivial
      | confirm link params =>
          exact confirmation_answers _ (confirm_link_idle link) params hl trivial .confirm
      | confirm_token token nonce params =>
          exact confirmation_answers _ (confirm_token_idle token nonce) params hl trivial
            .confirm_token
      | passkey_register_start cookie =>
          exact middleware_answers hl fun user =>
            idle_answers (register_start_idle _ wa user) hl id id
      | passkey_register_finish cookie label credential =>
          exact middleware_answers hl fun user =>
            register_finish_answers _ wa user label credential hl trivial
      | passkey_list cookie =>
          refine middleware_answers hl fun user => idle_answers ?_ hl id id
          exact Prog.uses_bind (passkeys_idle _) fun r => by cases r <;> trivial
      | passkey_remove cookie row_id =>
          exact middleware_answers hl fun user => remove_answers user row_id hl id
      | passkey_login_start username =>
          generalize hp :
            ServiceCall.handler jwt_svc wa (.route (.passkey_login_start username)) = p
          exact idle_answers (login_start_idle wa hp) hl id id
      | passkey_login_finish username credential params =>
          generalize hp : ServiceCall.handler jwt_svc wa
            (.route (.passkey_login_finish username credential params)) = p
          exact login_finish_answers _ wa hp rfl hl

end Handlers

end Statuses

end Authnz
