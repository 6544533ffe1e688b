/-
Whose sessions they are, over whole runs.

Requests run one after the other, each to its end, and a record is kept of them.  What
one request may add is its law (`Served.lawful`): a session only by proving control of
the account, a confirmed address only by taking a challenge, a challenge only for the
account asked for.  What a run has gathered then has its origins in the record
(`Origins`), and no step of it is the origin of two sessions.
-/
import Authnz.Basis.Once
import Authnz.Proofs.Issuing

namespace Authnz

open Basis

/-! ### The record of a run -/

/-- A request that was served: as whom the middleware let it in, when, with what answer, and the
states before and after. -/
structure Served (Reg Cred : Type) where
  req : Request Reg Cred
  who : Option Identity
  time : Time
  resp : HttpResponse
  before : World
  after : World

/-- The routes of the passkeys. -/
def Request.passkey {Reg Cred : Type} : Request Reg Cred → Prop
  | .passkey_register_start _ | .passkey_register_finish _ _ _ | .passkey_list _
  | .passkey_remove _ _ | .passkey_login_start _ | .passkey_login_finish _ _ _ => True
  | _ => False

/-- The routes that give an account its name. -/
def Request.names {Reg Cred : Type} : Request Reg Cred → Prop
  | .register _ | .update_user _ _ _ => True
  | _ => False

/-- The admin's update. -/
def Request.updates {Reg Cred : Type} : Request Reg Cred → Prop
  | .update_user _ _ _ => True
  | _ => False

section Recorded

variable {Reg Cred : Type} (c : Crates) (jwt_svc : JwtService) (wa : Webauthn Reg Cred)

/-- The requests, other than those of the passkeys, a service over these rows has served so far;
cache entries expire in between, and the clock goes on. -/
inductive Recorded (rows : List Record) : List (Served Reg Cred) → Time → World → Prop
  | start (now : Time) : Recorded rows [] now (World.of rows)
  | serve {l : List (Served Reg Cred)} {now : Time} {w : World} (h : Recorded rows l now w)
      (st : Served Reg Cred) (hbefore : st.before = w) (htime : now ≤ st.time)
      (hreq : ¬ st.req.passkey)
      (hrun : Prog.Exec (World.answer c) 0 (LetInAs st.who) (st.req.handler c jwt_svc wa) st.before
        st.resp st.after) : Recorded rows (l ++ [st]) st.time st.after
  | expire {l : List (Served Reg Cred)} {now : Time} {w : World} (h : Recorded rows l now w)
      (e : Expiry) : Recorded rows l now (w.expire e)
  | wait {l : List (Served Reg Cred)} {now : Time} {w : World} (h : Recorded rows l now w)
      {now' : Time} (htime : now ≤ now') : Recorded rows l now' w

end Recorded

namespace Served

variable {Reg Cred : Type}

/-- The step takes this challenge from its cache, and accepts it. -/
def Consumes (st : Served Reg Cred) (e : FA2Entry) : Prop :=
  match st.req with
  | .confirm link _ => st.before.links link = some e
  | .confirm_token token nonce _ => st.before.tokens nonce = some e ∧ e.token = token
  | _ => False

/-- The account the step is asked to challenge. -/
def Challenges (st : Served Reg Cred) (id : Uuid) : Prop :=
  match st.req with
  | .challenge1 email => ∃ u ∈ st.before.rows users, u.email = email ∧ u.id = id
  | .challenge2 username => ∃ u ∈ st.before.rows users, u.username = username ∧ u.id = id
  | _ => False

/-- The step draws this challenge, for the account it is asked to challenge. -/
structure Issues (st : Served Reg Cred) (e : FA2Entry) : Prop where
  asked : st.Challenges e.email
  found : st.resp ≠ translate_error .UserNotFound
  tokens : st.after.tokens = Function.update st.before.tokens e.nonce (some e)
  links : st.after.links = Function.update st.before.links e.link (some e)

/-- The step shows that its sender controls the account. -/
def Proves (c : Crates) (st : Served Reg Cred) (id : Uuid) : Prop :=
  match st.req with
  | .login req _ => ∃ u ∈ st.before.rows users, u.email = req.identifier ∧ u.id = id ∧
      c.bcrypt_verify req.password u.password_hash = some true
  | .username_login req _ => ∃ u ∈ st.before.rows users, u.username = req.identifier ∧ u.id = id ∧
      c.bcrypt_verify req.password u.password_hash = some true
  | .change_password _ req _ => (∃ session, st.who = some session ∧ session.sub = id) ∧
      ∃ u ∈ st.before.rows users, u.id = id ∧
        c.bcrypt_verify req.current_password u.password_hash = some true
  | .confirm _ _ | .confirm_token _ _ _ => ∃ e, st.Consumes e ∧ e.email = id
  | _ => False

end Served

/-! ### What one request may do -/

/-- What holds between requests. -/
structure Sound (w : World) : Prop where
  settled : w.Settled 0
  accountable : Accountable w
  links : ∀ {k : String} {e : FA2Entry}, w.links k = some e → e.link = k
  tokens : ∀ {k : String} {e : FA2Entry}, w.tokens k = some e → e.nonce = k

/-- The challenges only got fewer. -/
structure Spent (w w' : World) : Prop where
  links : ∀ {k : String} {e : FA2Entry}, w'.links k = some e → w.links k = some e
  tokens : ∀ {k : String} {e : FA2Entry}, w'.tokens k = some e → w.tokens k = some e

/-- The law of a request. -/
structure Lawful {Reg Cred : Type} (c : Crates) (st : Served Reg Cred) : Prop where
  sound : Sound st.after
  started : ∃ d₀, st.before.db.length ≤ d₀ ∧ ∀ {d : Nat} {s : Session},
    st.after.row sessions d = some s → st.before.row sessions d = some s ∨
      d = d₀ ∧ st.Proves c s.sub ∧ st.after.HasAccount ⟨s.sub, s.username, s.email⟩
  challenges : (∃ e, st.Issues e) ∨ Spent st.before st.after
  consumed : ∀ {e : FA2Entry}, st.Consumes e →
    st.after.links e.link = none ∧ st.after.tokens e.nonce = none
  flags : ¬ st.req.updates → ∀ {d : Nat} {id : Uuid}, st.after.look flagged d = some id →
    st.before.look flagged d = some id ∨ ∃ e, st.Consumes e ∧ e.email = id
  accounts : st.req.names ∨ ∀ d, st.after.look account d = st.before.look account d

section Law

variable {Reg Cred : Type} {c : Crates} {jwt_svc : JwtService} {wa : Webauthn Reg Cred}
  {w w' : World} {admits : World → Op → Choice → Prop}

theorem Sound.of {rows : List Record} (h : UniqueAccounts rows) : Sound (World.of rows) := by
  refine ⟨settled_of 0 rows, ⟨(settled_of 0 rows).level account, fun {d d' a a'} ha ha' hor => ?_,
    fun hx => (nomatch hx)⟩, fun hk => (nomatch hk), fun hk => (nomatch hk)⟩
  obtain ⟨u, hu, rfl⟩ := user_of_account ha
  obtain ⟨u', hu', rfl⟩ := user_of_account ha'
  exact h d d' u u' (row_of_iff.mp hu) (row_of_iff.mp hu') (clash_iff.mpr hor)

theorem Sound.spent (h : Sound w) (hset : w'.Settled 0) (hacc : Accountable w')
    (hspent : Spent w w') : Sound w' :=
  ⟨hset, hacc, fun hk => h.links (hspent.links hk), fun hk => h.tokens (hspent.tokens hk)⟩

theorem Sound.issued {st : Served Reg Cred} {e : FA2Entry} (h : Sound st.before)
    (hset : st.after.Settled 0) (hacc : Accountable st.after) (hissued : st.Issues e) :
    Sound st.after := by
  refine ⟨hset, hacc, fun {k e'} hk => ?_, fun {k e'} hk => ?_⟩
  · rw [hissued.links] at hk
    by_cases hkey : k = e.link
    · rw [hkey, Function.update_self] at hk
      rw [hkey, ← Option.some.inj hk]
    · rw [Function.update_of_ne hkey] at hk
      exact h.links hk
  · rw [hissued.tokens] at hk
    by_cases hkey : k = e.nonce
    · rw [hkey, Function.update_self] at hk
      rw [hkey, ← Option.some.inj hk]
    · rw [Function.update_of_ne hkey] at hk
      exact h.tokens hk

theorem spent_of_eq (htokens : w'.tokens = w.tokens) (hlinks : w'.links = w.links) : Spent w w' :=
  ⟨fun hk => by rwa [hlinks] at hk, fun hk => by rwa [htokens] at hk⟩

theorem Spent.trans {w'' : World} (h : Spent w w') (h' : Spent w' w'') : Spent w w'' :=
  ⟨fun hk => h.links (h'.links hk), fun hk => h.tokens (h'.tokens hk)⟩

/-- A session the step may start: it proves control of the account, and copies it. -/
def Served.Starts (c : Crates) (st : Served Reg Cred) (s : Session) : Prop :=
  st.Proves c s.sub ∧ st.before.HasAccount ⟨s.sub, s.username, s.email⟩

/-- An account whose address the step may confirm. -/
def Served.Confirms (st : Served Reg Cred) (id : Uuid) : Prop := ∃ e, st.Consumes e ∧ e.email = id

/-- A request that did no more than `Since` allows, once it had seen to the challenges. -/
theorem Lawful.of_since {st : Served Reg Cred} {w₁ : World} (hsound : Sound st.before)
    (hset : st.after.Settled 0) (hdb : w₁.db = st.before.db)
    (h : Since (st.Starts c) st.Confirms w₁ st.after)
    (hchallenges : (∃ e, st.Issues e) ∨ Spent st.before st.after)
    (hconsumed : ∀ {e : FA2Entry}, st.Consumes e →
      st.after.links e.link = none ∧ st.after.tokens e.nonce = none) : Lawful c st := by
  have hlook : ∀ {β : Type} (g : Record → Option β) (d : Nat), w₁.look g d = st.before.look g d := by
    intro β g d
    rw [World.look, World.look, hdb]
  have haccounts : ∀ d, st.after.look account d = st.before.look account d := fun d =>
    (h.accounts d).trans (hlook account d)
  have hsound' : Sound st.after := by
    rcases hchallenges with ⟨e, hissued⟩ | hspent
    · exact hsound.issued hset h.accountable hissued
    · exact hsound.spent hset h.accountable hspent
  obtain ⟨d₀, hd₀, hstarted⟩ := h.started
  refine ⟨hsound', ⟨d₀, hdb ▸ hd₀, fun {d s} hs => ?_⟩, hchallenges, hconsumed,
    fun _ {d id} hd => ?_, .inr haccounts⟩
  · rcases hstarted (reads_of_places (row_iff_places.mp hs)) with hold | ⟨heq, hproves, d', hd'⟩
    · refine .inl (row_iff_places.mpr (places_of_reads hsound.settled ?_))
      unfold World.Reads at hold ⊢
      rwa [hdb] at hold
    · exact .inr ⟨heq, hproves, d', (haccounts d').trans hd'⟩
  · exact (h.flags hd).imp_left (hlook flagged d).symm.trans

/-- The routes that start no session, name no account and leave the challenges alone. -/
def Request.modest : Request Reg Cred → Prop
  | .request_password_reset _ | .confirm_password_reset _ | .jwt_logout _ | .refresh _ | .jwt _
  | .logout _ | .account _ | .get_sessions _ | .delete_session _ _ => True
  | _ => False

theorem Request.modest_uses {req : Request Reg Cred} (h : req.modest) :
    (req.handler c jwt_svc wa).Uses Modest := by
  have hkind : ∀ o, Plain o ∨ req.special o → Plain o ∨ HashWrite o ∨ TokenInsert o := by
    intro o ho
    refine ho.imp_right fun ho => ?_
    cases req with
    | confirm_password_reset payload => exact .inl ho
    | refresh cmd | jwt cookie => exact .inr ho
    | request_password_reset | jwt_logout | logout | account | get_sessions | delete_session =>
        exact ho.elim
    | _ => exact h.elim
  refine modest_of (uses_mono (req.uses c jwt_svc wa) hkind) ?_
  cases req with
  | request_password_reset req =>
      exact Prog.uses_bind (request_password_reset_humble _) fun _ => trivial
  | confirm_password_reset payload =>
      refine Prog.uses_bind (confirm_password_reset_humble _) fun r => ?_
      cases r with
      | error e => trivial
      | ok user_id =>
          exact Prog.uses_bind (revoke_all_for_user_humble user_id) fun _ =>
            Prog.uses_bind (revoke_all_user_tokens_humble user_id) fun _ => trivial
  | jwt_logout cmd =>
      change (handlers.jwt_logout jwt_svc cmd).Uses Humble
      unfold handlers.jwt_logout
      generalize hp : (jwt_svc.logout cmd).run = p
      exact Prog.uses_bind (jwt_logout_humble hp) fun r => by cases r <;> trivial
  | refresh cmd =>
      change (handlers.refresh jwt_svc cmd).Uses Humble
      unfold handlers.refresh
      generalize hp : (jwt_svc.refresh cmd).run = p
      exact Prog.uses_bind (refresh_humble hp) fun r => by cases r <;> trivial
  | jwt cookie =>
      exact session_middleware_humble fun id =>
        Prog.uses_bind (issue_token_pair_with_humble jwt_svc .pool _ _) fun r => by
          cases r <;> trivial
  | logout cookie =>
      exact session_middleware_humble fun _ =>
        Prog.uses_bind (session_logout_humble cookie) fun r => by cases r <;> trivial
  | account cookie => exact session_middleware_humble fun _ => trivial
  | get_sessions cookie =>
      exact session_middleware_humble fun id =>
        Prog.uses_bind (p := SessionRepo.list id.sub) (uses_ask trivial) fun r => by
          cases r <;> trivial
  | delete_session cookie id =>
      exact session_middleware_humble fun sess => delete_session_humble id sess
  | _ => exact h.elim

section Routes

variable {P : Session → Prop} {F : Uuid → Prop} {w₀ : World}

/-- Accepted credentials are those of a stored account. -/
theorem credentials_found (q : String → User → Bool) (cmd : PasswordLoginCmd) :
    EndsE c 0 admits (credentials c q cmd) w
      (fun w' u => w' = w ∧ u ∈ w.sees 0 users ∧ q cmd.username u = true ∧
        c.bcrypt_verify cmd.password u.password_hash = some true)
      (fun w' _ => w' = w) := by
  unfold credentials
  by_cases he : (cmd.username.isEmpty || cmd.password.isEmpty) = true
  · rw [if_pos he]
    exact endsE_throw rfl
  rw [if_neg he]
  refine endsE_bind (endsE_bind (endsE_select ?_ fun _ _ => rfl))
  cases hrows : (w.sees 0 users).filter (q cmd.username) with
  | nil => exact endsE_throw rfl
  | cons u us =>
      have hu : u ∈ (w.sees 0 users).filter (q cmd.username) := by
        rw [hrows]
        exact List.mem_cons_self
      obtain ⟨hsees, hq⟩ := List.mem_filter.mp hu
      refine endsE_ret ?_
      cases hv : c.bcrypt_verify cmd.password u.password_hash with
      | none => exact endsE_throw rfl
      | some b =>
          cases b with
          | true => exact endsE_ret ⟨rfl, hsees, hq, hv⟩
          | false => exact endsE_throw rfl

theorem start_session_since (h : Since (fun _ => False) F w₀ w) (hset : w.Settled 0) (user : User)
    (params : SessionParams) (hacc : w₀.HasAccount (Account.of user))
    (hP : ∀ s : Session, s.sub = user.id → w₀.HasAccount ⟨s.sub, s.username, s.email⟩ → P s) :
    Ends c 0 admits (handlers.start_session c user params) w fun w' _ =>
      Since P F w₀ w' ∧ w'.Settled 0 := by
  refine copy_since h hset (UserResponse.of user) params hacc hP fun w' r h' hset' => ?_
  cases r <;> exact ends_ret ⟨h', hset'⟩

/-- What both logins do with a password. -/
theorem login_since (hset : w.Settled 0) (hacc : Accountable w) (q : String → User → Bool)
    (cmd : PasswordLoginCmd) (params : SessionParams)
    (hP : ∀ u ∈ w.rows users, q cmd.username u = true →
      c.bcrypt_verify cmd.password u.password_hash = some true → ∀ s : Session,
        s.sub = u.id → w.HasAccount ⟨s.sub, s.username, s.email⟩ → P s) :
    Ends c 0 admits (do
        match ← (credentials c q cmd).run with
        | .ok user => handlers.start_session c user params
        | .error e => return auth_error_to_response e) w
      fun w' _ => Since P F w w' ∧ w'.Settled 0 := by
  refine ends_run (endsE_mono (credentials_found q cmd) ?_ ?_)
  · intro w₁ u hpost
    obtain ⟨hw, hu, hq, hv⟩ := hpost
    subst hw
    have hrow : u ∈ w₁.rows users := (mem_sees_rows hset).mp hu
    obtain ⟨d, hd⟩ := mem_rows_iff.mp hrow
    exact start_session_since (.refl hacc hset) hset u params ⟨d, account_of_user hd⟩
      (hP u hrow hq hv)
  · intro w₁ e hw
    subst hw
    exact ends_ret ⟨.refl hacc hset, hset⟩

/-- A part of a request that has nothing to do with sessions, names and challenges. -/
theorem Since.kept {α : Type} {p : Handler α} (h : Since P F w₀ w) (hset : w.Settled 0)
    (hp : Orderly c 0 (fun o => Plain o ∨ HashWrite o) p) (hh : p.Uses Humble) :
    Ends c 0 admits p w fun w' _ => Since P F w₀ w' ∧ w'.Settled 0 :=
  ends_and (Since.keeps (modest_of (uses_mono hp.uses fun _ ho => ho.imp_right .inl) hh) w h)
    (hp.settles hset)

/-- What `change_password` does once the password is changed. -/
theorem after_change_since (h : Since (fun _ => False) F w₀ w) (hset : w.Settled 0) (user_id : Uuid)
    (params : SessionParams) (hP : ∀ s : Session, s.sub = user_id →
      w₀.HasAccount ⟨s.sub, s.username, s.email⟩ → P s) :
    Ends c 0 admits (after_change c user_id params) w fun w' _ =>
      Since P F w₀ w' ∧ w'.Settled 0 := by
  refine ends_bind (ends_mono (h.kept hset (Orderly.plain (revoke_all_for_user_orderly _))
    (revoke_all_for_user_humble _)) ?_)
  intro w₁ _ hpost
  obtain ⟨h₁, hset₁⟩ := hpost
  refine ends_run (endsE_mono (get_user_by_id_since h₁ user_id) ?_ ?_)
  · intro w₂ user hpost
    obtain ⟨h₂, hdb₂, hid, hacc⟩ := hpost
    have hset₂ : w₂.Settled 0 := by
      rw [World.Settled, hdb₂]
      exact hset₁
    refine copy_since h₂ hset₂ user params hacc (fun s hs => hP s (hs.trans hid)) ?_
    intro w₃ r h₃ hset₃
    cases r with
    | error e => exact ends_ret ⟨h₃, hset₃⟩
    | ok sess_id =>
        exact ends_bind (ends_mono (h₃.kept hset₃ (Orderly.plain (revoke_all_user_tokens_orderly _))
          (revoke_all_user_tokens_humble _)) fun _ _ hw => ends_ret hw)
  · intro w₂ e hpost
    obtain ⟨h₂, hdb₂⟩ := hpost
    refine ends_ret ⟨h₂.mono (fun _ hs => hs.elim) fun _ hid => hid, ?_⟩
    rw [World.Settled, hdb₂]
    exact hset₁

/-- A change of password starts a session only behind the current password. -/
theorem change_password_since (hset : w.Settled 0) (hacc : Accountable w) (user_id : Uuid)
    (current_password new_password : String) (params : SessionParams)
    (hP : ∀ u ∈ w.rows users, u.id = user_id →
      c.bcrypt_verify current_password u.password_hash = some true → ∀ s : Session,
        s.sub = user_id → w.HasAccount ⟨s.sub, s.username, s.email⟩ → P s) :
    Ends c 0 admits (do
        match ← (UserService.change_password c ⟨user_id, current_password, new_password⟩).run with
        | .ok () => after_change c user_id params
        | .error e => return auth_error_to_response e) w
      fun w' _ => Since P F w w' ∧ w'.Settled 0 := by
  have hrefl : Since (fun _ => False) F w w := .refl hacc hset
  refine ends_bind (ends_mono (ends_and (change_password_ends hset _) (hrefl.kept hset
    (change_password_orderly _) (change_password_humble _))) ?_)
  intro w₁ r hpost
  obtain ⟨hr, h₁, hset₁⟩ := hpost
  cases r with
  | error e => exact ends_ret ⟨h₁.mono (fun _ hs => hs.elim) fun _ hid => hid, hset₁⟩
  | ok _ =>
      obtain ⟨⟨u, us, -, hrows, hv, -⟩, -⟩ := hr
      have hu : u ∈ (w.sees 0 users).filter (UserIs user_id) := by
        rw [hrows]
        exact List.mem_cons_self
      obtain ⟨hsees, hid⟩ := List.mem_filter.mp hu
      exact after_change_since h₁ hset₁ user_id params
        (hP u ((mem_sees_rows hset).mp hsees) (by simpa [UserIs] using hid) hv)

/-- What both confirmations do with an accepted challenge. -/
theorem start_confirmed_session_since (hset : w.Settled 0) (hacc : Accountable w) {user_id : Uuid}
    (params : SessionParams) (hF : F user_id) (hP : ∀ s : Session, s.sub = user_id →
      w.HasAccount ⟨s.sub, s.username, s.email⟩ → P s) :
    Ends c 0 admits (handlers.start_confirmed_session c user_id params) w fun w' _ =>
      Since P F w w' ∧ w'.Settled 0 := by
  have hrefl : Since (fun _ => False) F w w := .refl hacc hset
  refine ends_run (endsE_mono (get_user_by_id_since hrefl user_id) ?_ ?_)
  · intro w₁ user hpost
    obtain ⟨h₁, hdb₁, hid, hacc⟩ := hpost
    have hset₁ : w₁.Settled 0 := by
      rw [World.Settled, hdb₁]
      exact hset
    refine ends_bind (ends_mono (confirm_email_since h₁ hset₁ hF) ?_)
    intro w₂ _ hpost
    obtain ⟨h₂, hset₂⟩ := hpost
    refine copy_since h₂ hset₂ user params hacc (fun s hs => hP s (hs.trans hid)) ?_
    intro w₃ r h₃ hset₃
    cases r <;> exact ends_ret ⟨h₃, hset₃⟩
  · intro w₁ e hpost
    obtain ⟨h₁, hdb₁⟩ := hpost
    refine ends_ret ⟨h₁.mono (fun _ hs => hs.elim) fun _ hid => hid, ?_⟩
    rw [World.Settled, hdb₁]
    exact hset

/-! ### The challenges -/

theorem release_pair_ends (email : Uuid) :
    Ends c 0 admits (PasswdlessService.release_pair email) w fun w' _ =>
      ∃ e : FA2Entry, e.email = email ∧ w' = { w with
        tokens := Function.update w.tokens e.nonce (some e)
        links := Function.update w.links e.link (some e) } := by
  refine ends_bind (ends_bind (ends_ask fun _ w₁ bytes _ hans => ?_))
  obtain ⟨-, rfl⟩ := World.answer_fill hans
  refine ends_ret (ends_bind (ends_bind (ends_ask fun _ w₂ bytes' _ hans => ?_)))
  obtain ⟨-, rfl⟩ := World.answer_fill hans
  refine ends_ret (ends_bind (ends_ask fun _ w₃ token _ hans => ?_))
  obtain rfl := World.answer_idle hans trivial
  refine ends_bind (ends_ask fun _ w₄ _ _ hans => ?_)
  rw [World.answer_tokens_insert hans]
  refine ends_bind (ends_ask fun _ w₅ _ _ hans => ?_)
  rw [World.answer_links_insert hans]
  exact ends_ret ⟨⟨base64url bytes, token, email, base64url bytes'⟩, rfl, rfl⟩

/-- The one way to fail once the account is found. -/
theorem publish_challenge_fails (payload : ChallengeRequested) :
    EndsE c 0 admits (PasswdlessService.publish_challenge payload) w (fun _ _ => True)
      (fun _ e => e = .DbError) := by
  refine endsE_bind (endsE_begin ?_ fun _ _ => rfl)
  refine endsE_in_tx (endsE_bind (endsE_insert (fun _ w₁ _ _ _ => ?_) (fun _ _ _ _ _ => rfl)
    fun _ _ _ _ => rfl))
  exact endsE_commit (fun _ _ _ _ _ _ => trivial) fun _ _ _ _ _ _ _ _ => rfl

/-- What both challenges do with the account they find, if they find one. -/
theorem challenge_since (hset : w.Settled 0) (hacc : Accountable w) {find : Service AuthError User}
    {Q : User → Prop} (hfind : EndsE c 0 admits find w (fun w' u => w' = w ∧ Q u)
      (fun w' _ => w' = w)) :
    Ends c 0 admits (do
        match ← (challenge_of find).run with
        | .ok () => return .finish 201
        | .error e => return translate_error e) w
      fun w' resp => w'.Settled 0 ∧ (w' = w ∨ resp ≠ translate_error .UserNotFound ∧
        ∃ (e : FA2Entry) (u : User), Q u ∧ e.email = u.id ∧ Since P F { w with
          tokens := Function.update w.tokens e.nonce (some e)
          links := Function.update w.links e.link (some e) } w') := by
  refine ends_run (endsE_bind (endsE_lift (ends_mono hfind ?_)))
  intro w₁ r hr
  cases r with
  | error e =>
      obtain rfl : w₁ = w := hr
      exact endsE_throw (ends_ret ⟨hset, .inl rfl⟩)
  | ok u =>
      obtain ⟨rfl, hu⟩ := hr
      refine endsE_bind (endsE_lift (ends_mono (release_pair_ends u.id) ?_))
      intro w₂ payload hpost
      obtain ⟨e, hemail, hw₂⟩ := hpost
      have hset₂ : w₂.Settled 0 := by
        rw [hw₂]
        exact hset
      have h₂ : Since P F w₂ w₂ := .refl (hacc.of_db (by rw [hw₂]) fun hx => by rwa [hw₂] at hx) hset₂
      refine ends_mono (ends_and (publish_challenge_fails payload) (h₂.kept hset₂
        (Orderly.plain (publish_challenge_orderly payload)) (publish_challenge_humble payload))) ?_
      intro w₃ r hpost
      obtain ⟨hr, h₃, hset₃⟩ := hpost
      rw [hw₂] at h₃
      cases r with
      | error e' =>
          obtain rfl : e' = .DbError := hr
          exact ends_ret ⟨hset₃, .inr ⟨by decide, e, u, hu, hemail, h₃⟩⟩
      | ok _ => exact ends_ret ⟨hset₃, .inr ⟨by decide, e, u, hu, hemail, h₃⟩⟩

theorem confirm_link_ends (token : String) :
    EndsE c 0 admits (PasswdlessService.confirm_link token) w
      (fun w' id => ∃ e, w.links token = some e ∧ e.email = id ∧ w' = { w with
        links := Function.update w.links token none
        tokens := Function.update w.tokens e.nonce none })
      (fun w' _ => w.links token = none ∧
        w' = { w with links := Function.update w.links token none }) := by
  refine endsE_bind (endsE_lift (ends_ask fun _ w₁ got _ hans => ?_))
  obtain ⟨rfl, rfl⟩ := World.answer_links_remove hans
  cases w.links token with
  | none => exact endsE_throw ⟨rfl, rfl⟩
  | some e =>
      refine endsE_bind (endsE_lift (ends_ask fun _ w₂ _ _ hans => ?_))
      rw [(World.answer_tokens_remove hans).1]
      exact endsE_ret ⟨e, rfl, rfl, rfl⟩

theorem confirm_token_ends (token : Nat) (nonce : String) :
    EndsE c 0 admits (PasswdlessService.confirm_token token nonce) w
      (fun w' id => ∃ e, w.tokens nonce = some e ∧ e.token = token ∧ e.email = id ∧ w' = { w with
        tokens := Function.update w.tokens nonce none
        links := Function.update w.links e.link none })
      (fun w' _ => (∀ e, w.tokens nonce = some e → e.token ≠ token) ∧
        w' = { w with tokens := Function.update w.tokens nonce none }) := by
  refine endsE_bind (endsE_lift (ends_ask fun _ w₁ got _ hans => ?_))
  obtain ⟨rfl, rfl⟩ := World.answer_tokens_remove hans
  cases w.tokens nonce with
  | none => exact endsE_throw ⟨fun e he => (nomatch he), rfl⟩
  | some e =>
      dsimp only
      by_cases htoken : e.token ≠ token
      · rw [if_pos htoken]
        refine endsE_throw ⟨fun e' he' => ?_, rfl⟩
        cases he'
        exact htoken
      · rw [if_neg htoken]
        refine endsE_bind (endsE_lift (ends_ask fun _ w₂ _ _ hans => ?_))
        rw [(World.answer_links_remove hans).1]
        exact endsE_ret ⟨e, rfl, not_not.mp htoken, rfl, rfl⟩

end Routes

/-! ### Every request -/

/-- A request that takes no challenge and draws none. -/
theorem Lawful.plain {st : Served Reg Cred} (hsound : Sound st.before) (hset : st.after.Settled 0)
    (hno : ∀ e, ¬ st.Consumes e) (h : Since (st.Starts c) st.Confirms st.before st.after) :
    Lawful c st :=
  .of_since hsound hset rfl h (.inr (spent_of_eq h.tokens h.links)) fun he => absurd he (hno _)

theorem Request.modest_lawful {st : Served Reg Cred} (hsound : Sound st.before)
    (hreq : st.req.modest) (hrun : Prog.Exec (World.answer c) 0 admits
      (st.req.handler c jwt_svc wa) st.before st.resp st.after) : Lawful c st := by
  have hno : ∀ e, ¬ st.Consumes e := by
    intro e he
    unfold Served.Consumes at he
    cases hst : st.req <;> rw [hst] at he hreq <;> first | exact he | exact hreq
  exact .plain hsound ((st.req.orderly jwt_svc wa).settles hsound.settled _ _ hrun) hno
    (Since.keeps (Request.modest_uses hreq) _ (.refl hsound.accountable hsound.settled) _ _ hrun)

theorem register_lawful {req : RegisterRequest} {who : Option Identity}
    {time : Time} {resp : HttpResponse}
    (hsound : Sound w) (hrun : Prog.Exec (World.answer c) 0 admits (handlers.register c req) w resp
      w') : Lawful c (⟨.register req, who, time, resp, w, w'⟩ : Served Reg Cred) := by
  have hsame : ∀ resp, Lawful c (⟨.register req, who, time, resp, w, w⟩ : Served Reg Cred) :=
    fun resp => .plain hsound hsound.settled (fun _ he => he)
      (.refl hsound.accountable hsound.settled)
  have hends : Ends c 0 admits (handlers.register c req) w fun w' resp =>
      Lawful c (⟨.register req, who, time, resp, w, w'⟩ : Served Reg Cred) := by
    unfold handlers.register
    by_cases hvalid : (!req.validate c) = true
    · rw [if_pos hvalid]
      exact ends_ret (hsame _)
    rw [if_neg hvalid]
    refine ends_run (endsE_mono (register_adds hsound.settled _ _ _) ?_ ?_)
    · intro w₁ _ hpost
      obtain ⟨u, salt, ⟨_, _, _, hflag⟩, _, hfree, hplaces, hset₁, hw₁⟩ := hpost
      have hacc := hsound.accountable.added hsound.settled hset₁ hfree hplaces hw₁
      have hspent : Spent w w₁ := spent_of_eq (by rw [hw₁]) (by rw [hw₁])
      refine ends_ret ⟨hsound.spent hset₁ hacc hspent, ⟨_, Nat.le_refl _, fun {d s} hs => .inl ?_⟩,
        .inr hspent, fun he => he.elim, fun _ {d id} hd => .inl ?_, .inl trivial⟩
      · rwa [show w₁.row sessions d = w.row sessions d from look_of_insert_hidden hplaces rfl d] at hs
      · have hhidden : flagged (.user u) = none := by
          change (if u.email_confirmed then some u.id else none) = none
          rw [hflag]
          rfl
        rwa [look_of_insert_hidden hplaces hhidden] at hd
    · intro w₁ e hw
      obtain rfl : w₁ = w := hw
      exact ends_ret (hsame _)
  exact hends _ _ hrun

theorem update_user_lawful {cookie : String} {id : Uuid} {dto : UpdateUser}
    {who : Option Identity} {time : Time} {resp : HttpResponse} (hsound : Sound w)
    (hrun : Prog.Exec (World.answer c) 0 admits
      (session_middleware cookie fun _ => handlers.update_user c id dto) w resp w') :
    Lawful c (⟨.update_user cookie id dto, who, time, resp, w, w'⟩ : Served Reg Cred) := by
  have hends : Ends c 0 admits (session_middleware cookie fun _ => handlers.update_user c id dto) w
      fun w' _ => w' = w ∨ ∃ ch r, World.answer c 0 (.update id dto) ch w = some (w', r) := by
    refine ends_middleware (fun _ _ => ends_bind (ends_ask fun ch w₁ updated _ hans => ?_)) (.inl rfl)
    change Except ApiError UserResponse at updated
    cases updated <;> exact ends_ret (.inr ⟨ch, _, hans⟩)
  rcases hends _ _ hrun with rfl | ⟨ch, r, hans⟩
  · exact .plain hsound hsound.settled (fun _ he => he) (.refl hsound.accountable hsound.settled)
  have hset : w'.Settled 0 := by
    refine Op.Pooled.settled (fun q hq => ?_) hans hsound.settled
    cases hq
    trivial
  have happart : ∀ q, (Op.update id dto).statement = some q → Apart sessions.prj q := by
    intro q hq
    cases hq
    exact apart_set (U := users) fun _ => rfl
  have hspent : Spent w w' := by
    rcases World.answer_update hans with ⟨rfl, -⟩ | ⟨_, _, -, -, -, hw⟩
    · exact spent_of_eq rfl rfl
    · exact spent_of_eq (by rw [hw]) (by rw [hw])
  refine ⟨hsound.spent hset (hsound.accountable.update hans).1 hspent,
    ⟨_, Nat.le_refl _, fun {d s} hs => ?_⟩, .inr hspent, fun he => he.elim,
    fun hno => absurd trivial hno, .inl trivial⟩
  exact .inl (((Apart.frame happart hans (hsound.settled.steady sessions)).2 d).symm.trans hs)

theorem login_lawful {st : Served Reg Cred} (hsound : Sound st.before) (hno : ∀ e, ¬ st.Consumes e)
    {q : String → User → Bool} {cmd : PasswordLoginCmd} {params : SessionParams}
    (hproves : ∀ u ∈ st.before.rows users, q cmd.username u = true →
      c.bcrypt_verify cmd.password u.password_hash = some true → st.Proves c u.id)
    (hrun : Prog.Exec (World.answer c) 0 admits (do
        match ← (credentials c q cmd).run with
        | .ok user => handlers.start_session c user params
        | .error e => return auth_error_to_response e) st.before st.resp st.after) :
    Lawful c st := by
  have hstarts : ∀ u ∈ st.before.rows users, q cmd.username u = true →
      c.bcrypt_verify cmd.password u.password_hash = some true → ∀ s : Session, s.sub = u.id →
        st.before.HasAccount ⟨s.sub, s.username, s.email⟩ → st.Starts c s := by
    intro u hu hq hv s hs hacc
    refine ⟨?_, hacc⟩
    rw [hs]
    exact hproves u hu hq hv
  obtain ⟨hsince, hset⟩ := login_since (F := st.Confirms) hsound.settled hsound.accountable q cmd
    params hstarts _ _ hrun
  exact .plain hsound hset hno hsince

theorem change_password_lawful {cookie : String} {req : ChangePasswordRequest}
    {params : SessionParams} {who : Option Identity} {time : Time} {resp : HttpResponse}
    (hsound : Sound w) (hrun : Prog.Exec (World.answer c) 0 (LetInAs who)
      (session_middleware cookie fun id => handlers.change_password c id req params) w resp w') :
    Lawful c (⟨.change_password cookie req params, who, time, resp, w, w'⟩ : Served Reg Cred) := by
  let st : Served Reg Cred := ⟨.change_password cookie req params, who, time, resp, w, w'⟩
  have hno : ∀ e, ¬ st.Consumes e := fun _ he => he
  have hends : Ends c 0 (LetInAs who)
      (session_middleware cookie fun id => handlers.change_password c id req params) w
      fun w' _ => Since (st.Starts c) st.Confirms w w' ∧ w'.Settled 0 := by
    refine ends_middleware_as (fun _ _ _ h => h) (fun session hsession => ?_)
      ⟨.refl hsound.accountable hsound.settled, hsound.settled⟩
    refine change_password_since hsound.settled hsound.accountable session.sub req.current_password
      req.new_password params fun u hu hid hv s hs hacc => ?_
    refine ⟨?_, hacc⟩
    rw [hs]
    exact ⟨⟨session, hsession, rfl⟩, u, hu, hid, hv⟩
  obtain ⟨hsince, hset⟩ := hends _ _ hrun
  have hlawful : Lawful c st := .plain hsound hset hno hsince
  exact hlawful

/-- What is left once a confirmation has seen to the challenge. -/
structure Served.Took (st : Served Reg Cred) (w₁ : World) : Prop where
  db : w₁.db = st.before.db
  user_cache : w₁.user_cache = st.before.user_cache
  spent : Spent st.before w₁
  consumed : ∀ {e : FA2Entry}, st.Consumes e → w₁.links e.link = none ∧ w₁.tokens e.nonce = none

theorem confirm_lawful {st : Served Reg Cred} {p : Service PasswdlessError Uuid}
    {params : SessionParams} (hsound : Sound st.before)
    (hp : EndsE c 0 admits p st.before (fun w₁ id => st.Took w₁ ∧ st.Confirms id)
      (fun w₁ _ => st.Took w₁))
    (hproves : ∀ id, st.Confirms id → st.Proves c id)
    (hrun : Prog.Exec (World.answer c) 0 admits (do
        match ← p.run with
        | .error e => return translate_error e
        | .ok user_id => handlers.start_confirmed_session c user_id params)
      st.before st.resp st.after) : Lawful c st := by
  have hkept : ∀ {w₁}, st.Took w₁ → w₁.Settled 0 ∧ Accountable w₁ := by
    intro w₁ htook
    refine ⟨?_, hsound.accountable.of_db htook.db fun hx => by rwa [htook.user_cache] at hx⟩
    rw [World.Settled, htook.db]
    exact hsound.settled
  have hends : Ends c 0 admits (do
        match ← p.run with
        | .error e => return translate_error e
        | .ok user_id => handlers.start_confirmed_session c user_id params) st.before
      fun w' _ => ∃ w₁, st.Took w₁ ∧ Since (st.Starts c) st.Confirms w₁ w' ∧ w'.Settled 0 := by
    refine ends_run (endsE_mono hp ?_ ?_)
    · intro w₁ id hpost
      obtain ⟨htook, hid⟩ := hpost
      obtain ⟨hset₁, hacc₁⟩ := hkept htook
      refine ends_mono (start_confirmed_session_since hset₁ hacc₁ params hid
        fun s hs hacc => ?_) fun w' _ hw' => ⟨w₁, htook, hw'⟩
      refine ⟨?_, hacc.of_db htook.db.symm⟩
      rw [hs]
      exact hproves id hid
    · intro w₁ e htook
      obtain ⟨hset₁, hacc₁⟩ := hkept htook
      exact ends_ret ⟨w₁, htook, .refl hacc₁ hset₁, hset₁⟩
  obtain ⟨w₁, htook, hsince, hset⟩ := hends _ _ hrun
  refine .of_since hsound hset htook.db hsince
    (.inr (htook.spent.trans (spent_of_eq hsince.tokens hsince.links))) fun he => ?_
  rw [hsince.links, hsince.tokens]
  exact htook.consumed he

/-- A challenge taken by its link is gone from both caches. -/
theorem took_by_link {link : String} {params : SessionParams} {who : Option Identity} {time : Time}
    {resp : HttpResponse} (hsound : Sound w) :
    let st : Served Reg Cred := ⟨.confirm link params, who, time, resp, w, w'⟩
    EndsE c 0 admits (PasswdlessService.confirm_link link) w
      (fun w₁ id => st.Took w₁ ∧ st.Confirms id) (fun w₁ _ => st.Took w₁) := by
  refine endsE_mono (confirm_link_ends link) ?_ ?_
  · intro w₁ id hpost
    obtain ⟨e, hlink, hemail, hw₁⟩ := hpost
    subst hw₁
    refine ⟨⟨rfl, rfl, ⟨stored_of_removal, stored_of_removal⟩, fun {e'} he' => ?_⟩, e, hlink, hemail⟩
    obtain rfl : e = e' := Option.some.inj (hlink.symm.trans he')
    obtain rfl := hsound.links hlink
    exact ⟨Function.update_self .., Function.update_self ..⟩
  · intro w₁ e hpost
    obtain ⟨hlink, hw₁⟩ := hpost
    subst hw₁
    refine ⟨rfl, rfl, ⟨stored_of_removal, fun hk => hk⟩, fun {e'} he' => ?_⟩
    rw [show w.links link = some e' from he'] at hlink
    cases hlink

/-- And so is one taken by its nonce. -/
theorem took_by_nonce {token : Nat} {nonce : String} {params : SessionParams} {who : Option Identity}
    {time : Time} {resp : HttpResponse} (hsound : Sound w) :
    let st : Served Reg Cred := ⟨.confirm_token token nonce params, who, time, resp, w, w'⟩
    EndsE c 0 admits (PasswdlessService.confirm_token token nonce) w
      (fun w₁ id => st.Took w₁ ∧ st.Confirms id) (fun w₁ _ => st.Took w₁) := by
  refine endsE_mono (confirm_token_ends token nonce) ?_ ?_
  · intro w₁ id hpost
    obtain ⟨e, hnonce, htoken, hemail, hw₁⟩ := hpost
    subst hw₁
    refine ⟨⟨rfl, rfl, ⟨stored_of_removal, stored_of_removal⟩, fun {e'} he' => ?_⟩, e,
      ⟨hnonce, htoken⟩, hemail⟩
    obtain rfl : e = e' := Option.some.inj (hnonce.symm.trans he'.1)
    obtain rfl := hsound.tokens hnonce
    exact ⟨Function.update_self .., Function.update_self ..⟩
  · intro w₁ e hpost
    obtain ⟨hnonce, hw₁⟩ := hpost
    subst hw₁
    exact ⟨rfl, rfl, ⟨fun hk => hk, stored_of_removal⟩,
      fun {e'} he' => absurd he'.2 (hnonce e' he'.1)⟩

theorem challenge_lawful {st : Served Reg Cred} {find : Service AuthError User} {Q : User → Prop}
    (hsound : Sound st.before) (hno : ∀ e, ¬ st.Consumes e)
    (hfind : EndsE c 0 admits find st.before (fun w' u => w' = st.before ∧ Q u)
      (fun w' _ => w' = st.before)) (hasked : ∀ u, Q u → st.Challenges u.id)
    (hrun : Prog.Exec (World.answer c) 0 admits (do
        match ← (challenge_of find).run with
        | .ok () => return .finish 201
        | .error e => return translate_error e) st.before st.resp st.after) : Lawful c st := by
  obtain ⟨hset, hsame | ⟨hfound, e, u, hu, hemail, hsince⟩⟩ := challenge_since (P := st.Starts c)
    (F := st.Confirms) hsound.settled hsound.accountable hfind _ _ hrun
  · refine .plain hsound hset hno ?_
    rw [hsame]
    exact .refl hsound.accountable hsound.settled
  · have hissued : st.Issues e := by
      refine ⟨?_, hfound, hsince.tokens, hsince.links⟩
      rw [hemail]
      exact hasked u hu
    refine .of_since hsound hset ?_ hsince (.inl ⟨e, hissued⟩) fun he => absurd he (hno _)
    rfl

theorem get_user_by_email_ends (email : String) :
    EndsE c 0 admits (UserService.get_user_by_email email) w
      (fun w' u => w' = w ∧ u ∈ w.sees 0 users ∧ u.email = email) (fun w' _ => w' = w) := by
  refine endsE_bind (endsE_select ?_ fun _ _ => rfl)
  cases hrows : (w.sees 0 users).filter fun u => u.email == email with
  | nil => exact endsE_throw rfl
  | cons u us =>
      have hu : u ∈ (w.sees 0 users).filter fun u => u.email == email := by
        rw [hrows]
        exact List.mem_cons_self
      obtain ⟨hsees, hemail⟩ := List.mem_filter.mp hu
      exact endsE_ret ⟨rfl, hsees, by simpa using hemail⟩

/-- **The law of every request that has nothing to do with passkeys.** -/
theorem Served.lawful {st : Served Reg Cred} (hsound : Sound st.before) (hreq : ¬ st.req.passkey)
    (hrun : Prog.Exec (World.answer c) 0 (LetInAs st.who) (st.req.handler c jwt_svc wa) st.before
      st.resp st.after) : Lawful c st := by
  by_cases hmodest : st.req.modest
  · exact Request.modest_lawful hsound hmodest hrun
  obtain ⟨req, who, time, resp, w, w'⟩ := st
  have hmem : ∀ u, u ∈ w.sees 0 users → u ∈ w.rows users := fun u =>
    (mem_sees_rows hsound.settled).mp
  cases req with
  | register req => exact register_lawful hsound hrun
  | update_user cookie id dto => exact update_user_lawful hsound hrun
  | login req params =>
      change Prog.Exec (World.answer c) 0 (LetInAs who) (handlers.login c req params) w resp w' at hrun
      unfold handlers.login at hrun
      rw [password_login_eq] at hrun
      refine login_lawful hsound (fun _ he => he) (fun u hu hq hv => ?_) hrun
      exact ⟨u, hu, by simpa using hq, rfl, hv⟩
  | username_login req params =>
      change Prog.Exec (World.answer c) 0 (LetInAs who) (handlers.username_login c req params) w resp
        w' at hrun
      unfold handlers.username_login at hrun
      rw [username_login_eq] at hrun
      refine login_lawful hsound (fun _ he => he) (fun u hu hq hv => ?_) hrun
      exact ⟨u, hu, by simpa using hq, rfl, hv⟩
  | change_password cookie req params => exact change_password_lawful hsound hrun
  | challenge1 email =>
      exact challenge_lawful hsound (fun _ he => he) (get_user_by_email_ends email)
        (fun u hu => ⟨u, hmem u hu.1, hu.2, rfl⟩) hrun
  | challenge2 username =>
      exact challenge_lawful hsound (fun _ he => he) (get_user_by_username_ends username)
        (fun u hu => ⟨u, hmem u hu.1, hu.2, rfl⟩) hrun
  | confirm link params => exact confirm_lawful hsound (took_by_link hsound) (fun _ h => h) hrun
  | confirm_token token nonce params =>
      exact confirm_lawful hsound (took_by_nonce hsound) (fun _ h => h) hrun
  | passkey_register_start | passkey_register_finish | passkey_list | passkey_remove
    | passkey_login_start | passkey_login_finish => exact absurd trivial hreq
  | _ => exact absurd trivial hmodest

end Law

/-! ### Whole runs -/

section Runs

variable {Reg Cred : Type} {c : Crates} {jwt_svc : JwtService} {wa : Webauthn Reg Cred}
  {rows : List Record} {l : List (Served Reg Cred)} {w w' : World}

/-- Step `i` of the record took the challenge. -/
def TakenAt (l : List (Served Reg Cred)) (i : Nat) (e : FA2Entry) : Prop :=
  ∃ st, l[i]? = some st ∧ st.Consumes e

/-- Step `i` of the record issued the challenge. -/
def IssuedAt (l : List (Served Reg Cred)) (i : Nat) (e : FA2Entry) : Prop :=
  ∃ st, l[i]? = some st ∧ st.Issues e

/-- The session stands at place `d`, and did not when the run began. -/
def StartedAt (rows : List Record) (w : World) (d : Nat) (s : Session) : Prop :=
  w.row sessions d = some s ∧ rows[d]? ≠ some (.session s)

theorem StartedAt.of_expire {e : Expiry} {d : Nat} {s : Session}
    (h : StartedAt rows (w.expire e) d s) : StartedAt rows w d s := by
  unfold StartedAt World.row at h ⊢
  rwa [World.expire_db] at h

/-- Where what a run has gathered comes from.  `f` gives the step that started a session and `g`
the step that issued the challenge taken for it; `lf` and `tf` give the steps that issued what is
in the caches. -/
structure Traced (c : Crates) (rows : List Record) (l : List (Served Reg Cred)) (w : World)
    (f g : Nat → Nat) (lf tf : String → Nat) : Prop where
  sound : Sound w
  proved : ∀ {d : Nat} {s : Session}, StartedAt rows w d s → ∃ st, l[f d]? = some st ∧
    st.Proves c s.sub ∧ st.after.HasAccount ⟨s.sub, s.username, s.email⟩
  apart : ∀ {d d' : Nat} {s s' : Session}, StartedAt rows w d s → StartedAt rows w d' s' →
    f d = f d' → d = d'
  challenged : ∀ {d : Nat} {s : Session} {e : FA2Entry}, StartedAt rows w d s →
    TakenAt l (f d) e → g d < f d ∧ IssuedAt l (g d) e
  once : ∀ {d d' : Nat} {s s' : Session} {e e' : FA2Entry}, StartedAt rows w d s →
    StartedAt rows w d' s' → TakenAt l (f d) e → TakenAt l (f d') e' → g d = g d' → d = d'
  links : ∀ {k : String} {e : FA2Entry}, w.links k = some e → IssuedAt l (lf k) e
  tokens : ∀ {k : String} {e : FA2Entry}, w.tokens k = some e → IssuedAt l (tf k) e
  links_apart : ∀ {k k' : String} {e e' : FA2Entry}, w.links k = some e → w.links k' = some e' →
    lf k = lf k' → k = k'
  tokens_apart : ∀ {k k' : String} {e e' : FA2Entry}, w.tokens k = some e →
    w.tokens k' = some e' → tf k = tf k' → k = k'
  across : ∀ {k k' : String} {e e' : FA2Entry}, w.links k = some e → w.tokens k' = some e' →
    lf k = tf k' → e = e'
  unused : ∀ {d : Nat} {s : Session} {e : FA2Entry}, StartedAt rows w d s → TakenAt l (f d) e →
    (∀ {k : String} {e' : FA2Entry}, w.links k = some e' → lf k ≠ g d) ∧
      ∀ {k : String} {e' : FA2Entry}, w.tokens k = some e' → tf k ≠ g d
  flags : (∀ st ∈ l, ¬ st.req.updates) → ∀ {d : Nat} {id : Uuid}, w.look flagged d = some id →
    rows[d]?.bind flagged = some id ∨
      ∃ i j e, j < i ∧ TakenAt l i e ∧ IssuedAt l j e ∧ e.email = id

theorem Served.Consumes.unique {st : Served Reg Cred} {e e' : FA2Entry} (h : st.Consumes e)
    (h' : st.Consumes e') : e = e' := by
  unfold Served.Consumes at h h'
  cases hreq : st.req <;> rw [hreq] at h h' <;>
    first | exact h.elim | exact Option.some.inj (h.symm.trans h') |
      exact Option.some.inj (h.1.symm.trans h'.1)

theorem Served.Issues.not_consumes {st : Served Reg Cred} {e e' : FA2Entry} (h : st.Issues e) :
    ¬ st.Consumes e' := by
  intro h'
  have hasked := h.asked
  unfold Served.Consumes at h'
  unfold Served.Challenges at hasked
  cases hreq : st.req <;> rw [hreq] at h' hasked <;> first | exact h' | exact hasked

theorem getElem?_lt {α : Type} {l : List α} {i : Nat} {a : α} (h : l[i]? = some a) : i < l.length :=
  (List.getElem?_eq_some_iff.mp h).1

theorem IssuedAt.lt {i : Nat} {e : FA2Entry} (h : IssuedAt l i e) : i < l.length := by
  obtain ⟨st, hst, -⟩ := h
  exact getElem?_lt hst

theorem IssuedAt.snoc {i : Nat} {e : FA2Entry} (h : IssuedAt l i e) (st : Served Reg Cred) :
    IssuedAt (l ++ [st]) i e := by
  obtain ⟨st', hst', he⟩ := h
  exact ⟨st', by rw [List.getElem?_append_left (getElem?_lt hst'), hst'], he⟩

theorem takenAt_snoc {i : Nat} {e : FA2Entry} {st : Served Reg Cred} (hi : i < l.length) :
    TakenAt (l ++ [st]) i e ↔ TakenAt l i e := by
  unfold TakenAt
  rw [List.getElem?_append_left hi]

theorem takenAt_last {e : FA2Entry} {st : Served Reg Cred} :
    TakenAt (l ++ [st]) l.length e ↔ st.Consumes e := by
  unfold TakenAt
  rw [List.getElem?_concat_length]
  exact ⟨fun ⟨st', hst, he⟩ => Option.some.inj hst ▸ he, fun he => ⟨st, rfl, he⟩⟩

theorem issuedAt_last {e : FA2Entry} {st : Served Reg Cred} (h : st.Issues e) :
    IssuedAt (l ++ [st]) l.length e := ⟨st, List.getElem?_concat_length .., h⟩

theorem Traced.start (hunique : UniqueAccounts rows) :
    Traced c rows ([] : List (Served Reg Cred)) (World.of rows) (fun _ => 0) (fun _ => 0)
      (fun _ => 0) fun _ => 0 := by
  have hno : ∀ {d s}, ¬ StartedAt rows (World.of rows) d s := fun h => h.2 (row_of_iff.mp h.1)
  refine ⟨.of hunique, fun h => absurd h hno, fun h => absurd h hno, fun h => absurd h hno,
    fun h => absurd h hno, fun h => (nomatch h), fun h => (nomatch h), fun h => (nomatch h),
    fun h => (nomatch h), fun h => (nomatch h), fun h => absurd h hno, fun _ {d id} hd => .inl ?_⟩
  rwa [look_of] at hd

variable {f g : Nat → Nat} {lf tf : String → Nat}

theorem Traced.started_lt (h : Traced c rows l w f g lf tf) {d : Nat} {s : Session}
    (hs : StartedAt rows w d s) : f d < l.length := by
  obtain ⟨st, hst, -⟩ := h.proved hs
  exact getElem?_lt hst

/-- Entries may go. -/
theorem Traced.expire (h : Traced c rows l w f g lf tf) (e : Expiry) :
    Traced c rows l (w.expire e) f g lf tf := by
  have hdb := World.expire_db e w
  have hspent : Spent w (w.expire e) := by
    cases e with
    | token k => exact ⟨fun hk => hk, stored_of_removal⟩
    | link k => exact ⟨stored_of_removal, fun hk => hk⟩
    | user id | reg_state k | auth_state k => exact ⟨fun hk => hk, fun hk => hk⟩
  have hcache : ∀ {id : Uuid} {x : { u : UserResponse // u.id = id }},
      (w.expire e).user_cache id = some x → w.user_cache id = some x := by
    intro id x hx
    cases e with
    | user id' =>
        change Function.update w.user_cache id' none id = some x at hx
        by_cases hid : id = id'
        · subst hid
          rw [Function.update_self] at hx
          cases hx
        · rwa [Function.update_of_ne hid] at hx
    | _ => exact hx
  have hset : (w.expire e).Settled 0 := by
    rw [World.Settled, hdb]
    exact h.sound.settled
  refine ⟨h.sound.spent hset (h.sound.accountable.of_db hdb hcache) hspent,
    fun hs => h.proved hs.of_expire, fun hs hs' => h.apart hs.of_expire hs'.of_expire,
    fun hs => h.challenged hs.of_expire,
    fun hs hs' => h.once hs.of_expire hs'.of_expire, fun hk => h.links (hspent.links hk),
    fun hk => h.tokens (hspent.tokens hk),
    fun hk hk' => h.links_apart (hspent.links hk) (hspent.links hk'),
    fun hk hk' => h.tokens_apart (hspent.tokens hk) (hspent.tokens hk'),
    fun hk hk' => h.across (hspent.links hk) (hspent.tokens hk'), fun hs he => ?_,
    fun hupdates {d id} hd => h.flags hupdates ?_⟩
  · obtain ⟨hlinks, htokens⟩ := h.unused hs.of_expire he
    exact ⟨fun hk => hlinks (hspent.links hk), fun hk => htokens (hspent.tokens hk)⟩
  · rwa [World.look, hdb] at hd

/-- Step `j` issued the challenge; no started session and no other entry comes from it. -/
structure Unshared (rows : List Record) (l : List (Served Reg Cred)) (w : World) (f g : Nat → Nat)
    (lf tf : String → Nat) (e : FA2Entry) (j : Nat) : Prop where
  issued : IssuedAt l j e
  links : ∀ {k : String} {e' : FA2Entry}, w.links k = some e' → lf k = j → k = e.link
  tokens : ∀ {k : String} {e' : FA2Entry}, w.tokens k = some e' → tf k = j → k = e.nonce
  started : ∀ {d : Nat} {s : Session} {e' : FA2Entry}, StartedAt rows w d s →
    TakenAt l (f d) e' → g d ≠ j

/-- A challenge that is taken comes from a step that nothing else comes from. -/
theorem Traced.taken (h : Traced c rows l w f g lf tf) {st : Served Reg Cred}
    (hbefore : st.before = w) {e : FA2Entry} (he : st.Consumes e) :
    ∃ j, Unshared rows l w f g lf tf e j := by
  obtain ⟨req, who, time, resp, before, after⟩ := st
  obtain rfl : before = w := hbefore
  cases req with
  | confirm link params =>
      have hlink : before.links link = some e := he
      refine ⟨lf link, h.links hlink, fun hk hj => ?_, fun hk hj => ?_, fun hs ht heq => ?_⟩
      · rw [h.sound.links hlink]
        exact h.links_apart hk hlink hj
      · rw [h.across hlink hk hj.symm]
        exact (h.sound.tokens hk).symm
      · exact (h.unused hs ht).1 hlink heq.symm
  | confirm_token token nonce params =>
      have hnonce : before.tokens nonce = some e := he.1
      refine ⟨tf nonce, h.tokens hnonce, fun hk hj => ?_, fun hk hj => ?_, fun hs ht heq => ?_⟩
      · rw [← h.across hk hnonce hj]
        exact (h.sound.links hk).symm
      · rw [h.sound.tokens hnonce]
        exact h.tokens_apart hk hnonce hj
      · exact (h.unused hs ht).2 hnonce heq.symm
  | _ => exact he.elim

/-- One more step: at most one session from it, at most one challenge from it. -/
theorem Traced.extend (h : Traced c rows l w f g lf tf) {st : Served Reg Cred}
    (hbefore : st.before = w) (law : Lawful c st) {f' g' : Nat → Nat} {lf' tf' : String → Nat}
    {d₀ j : Nat} {x : Option FA2Entry}
    (hstarted : ∀ {d : Nat} {s : Session}, StartedAt rows st.after d s →
      StartedAt rows w d s ∧ f' d = f d ∧ g' d = g d ∨
        (d = d₀ ∧ f' d = l.length ∧ g' d = j) ∧ st.Proves c s.sub ∧
          st.after.HasAccount ⟨s.sub, s.username, s.email⟩)
    (hlinks : ∀ {k : String} {e : FA2Entry}, st.after.links k = some e →
      w.links k = some e ∧ lf' k = lf k ∨ x = some e ∧ k = e.link ∧ lf' k = l.length)
    (htokens : ∀ {k : String} {e : FA2Entry}, st.after.tokens k = some e →
      w.tokens k = some e ∧ tf' k = tf k ∨ x = some e ∧ k = e.nonce ∧ tf' k = l.length)
    (hx : ∀ e, x = some e → st.Issues e)
    (hj : ∀ e, st.Consumes e → Unshared rows l w f g lf tf e j) :
    Traced c rows (l ++ [st]) st.after f' g' lf' tf' := by
  -- what an older session's step took, it had taken before
  have hbefore_taken : ∀ {d s e}, StartedAt rows w d s → TakenAt (l ++ [st]) (f d) e →
      TakenAt l (f d) e := fun hs ht => (takenAt_snoc (h.started_lt hs)).mp ht
  refine ⟨law.sound, fun {d s} hs => ?_, fun {d d' s s'} hs hs' heq => ?_, fun {d s e} hs ht => ?_,
    fun {d d' s s' e e'} hs hs' ht ht' heq => ?_, fun {k e} hk => ?_, fun {k e} hk => ?_,
    fun {k k' e e'} hk hk' heq => ?_, fun {k k' e e'} hk hk' heq => ?_,
    fun {k k' e e'} hk hk' heq => ?_, fun {d s e} hs ht => ?_, fun hupdates {d id} hd => ?_⟩
  · rcases hstarted hs with ⟨hold, hf, -⟩ | ⟨⟨-, hf, -⟩, hproves, hacc⟩
    · obtain ⟨st', hst', hrest⟩ := h.proved hold
      refine ⟨st', ?_, hrest⟩
      rw [hf, List.getElem?_append_left (getElem?_lt hst'), hst']
    · refine ⟨st, ?_, hproves, hacc⟩
      rw [hf, List.getElem?_concat_length]
  · rcases hstarted hs with ⟨hold, hf, -⟩ | ⟨⟨hd, hf, -⟩, -⟩ <;>
      rcases hstarted hs' with ⟨hold', hf', -⟩ | ⟨⟨hd', hf', -⟩, -⟩ <;> rw [hf, hf'] at heq
    · exact h.apart hold hold' heq
    · exact absurd heq (Nat.ne_of_lt (h.started_lt hold))
    · exact absurd heq.symm (Nat.ne_of_lt (h.started_lt hold'))
    · rw [hd, hd']
  · rcases hstarted hs with ⟨hold, hf, hg⟩ | ⟨⟨-, hf, hg⟩, -⟩ <;> rw [hf] at ht <;> rw [hf, hg]
    · obtain ⟨hlt, hissued⟩ := h.challenged hold (hbefore_taken hold ht)
      exact ⟨hlt, hissued.snoc st⟩
    · have hissued := (hj e (takenAt_last.mp ht)).issued
      exact ⟨hissued.lt, hissued.snoc st⟩
  · rcases hstarted hs with ⟨hold, hf, hg⟩ | ⟨⟨hd, hf, hg⟩, -⟩ <;>
      rcases hstarted hs' with ⟨hold', hf', hg'⟩ | ⟨⟨hd', hf', hg'⟩, -⟩ <;>
        rw [hg, hg'] at heq <;> rw [hf] at ht <;> rw [hf'] at ht'
    · exact h.once hold hold' (hbefore_taken hold ht) (hbefore_taken hold' ht') heq
    · exact absurd heq ((hj e' (takenAt_last.mp ht')).started hold (hbefore_taken hold ht))
    · exact absurd heq.symm ((hj e (takenAt_last.mp ht)).started hold' (hbefore_taken hold' ht'))
    · rw [hd, hd']
  · rcases hlinks hk with ⟨hold, hlf⟩ | ⟨hnew, -, hlf⟩ <;> rw [hlf]
    · exact (h.links hold).snoc st
    · exact issuedAt_last (hx e hnew)
  · rcases htokens hk with ⟨hold, htf⟩ | ⟨hnew, -, htf⟩ <;> rw [htf]
    · exact (h.tokens hold).snoc st
    · exact issuedAt_last (hx e hnew)
  · rcases hlinks hk with ⟨hold, hlf⟩ | ⟨hnew, hkey, hlf⟩ <;>
      rcases hlinks hk' with ⟨hold', hlf'⟩ | ⟨hnew', hkey', hlf'⟩ <;> rw [hlf, hlf'] at heq
    · exact h.links_apart hold hold' heq
    · exact absurd heq (Nat.ne_of_lt (h.links hold).lt)
    · exact absurd heq.symm (Nat.ne_of_lt (h.links hold').lt)
    · rw [hkey, hkey', Option.some.inj (hnew.symm.trans hnew')]
  · rcases htokens hk with ⟨hold, htf⟩ | ⟨hnew, hkey, htf⟩ <;>
      rcases htokens hk' with ⟨hold', htf'⟩ | ⟨hnew', hkey', htf'⟩ <;> rw [htf, htf'] at heq
    · exact h.tokens_apart hold hold' heq
    · exact absurd heq (Nat.ne_of_lt (h.tokens hold).lt)
    · exact absurd heq.symm (Nat.ne_of_lt (h.tokens hold').lt)
    · rw [hkey, hkey', Option.some.inj (hnew.symm.trans hnew')]
  · rcases hlinks hk with ⟨hold, hlf⟩ | ⟨hnew, -, hlf⟩ <;>
      rcases htokens hk' with ⟨hold', htf'⟩ | ⟨hnew', -, htf'⟩ <;> rw [hlf, htf'] at heq
    · exact h.across hold hold' heq
    · exact absurd heq (Nat.ne_of_lt (h.links hold).lt)
    · exact absurd heq.symm (Nat.ne_of_lt (h.tokens hold').lt)
    · exact Option.some.inj (hnew.symm.trans hnew')
  · rcases hstarted hs with ⟨hold, hf, hg⟩ | ⟨⟨-, hf, hg⟩, -⟩ <;> rw [hf] at ht <;> rw [hg]
    · have htaken := hbefore_taken hold ht
      obtain ⟨hlinks₀, htokens₀⟩ := h.unused hold htaken
      have hlt : g d < l.length := (h.challenged hold htaken).2.lt
      refine ⟨fun hk => ?_, fun hk => ?_⟩
      · rcases hlinks hk with ⟨hk, hlf⟩ | ⟨-, -, hlf⟩ <;> rw [hlf]
        · exact hlinks₀ hk
        · exact Nat.ne_of_gt hlt
      · rcases htokens hk with ⟨hk, htf⟩ | ⟨-, -, htf⟩ <;> rw [htf]
        · exact htokens₀ hk
        · exact Nat.ne_of_gt hlt
    · have he := takenAt_last.mp ht
      obtain ⟨hgone, hgone'⟩ := law.consumed he
      refine ⟨fun {k e'} hk => ?_, fun {k e'} hk => ?_⟩
      · rcases hlinks hk with ⟨hold, hlf⟩ | ⟨hnew, -, -⟩
        · intro heq
          obtain rfl := (hj e he).links hold (hlf.symm.trans heq)
          rw [hgone] at hk
          cases hk
        · exact absurd he (hx e' hnew).not_consumes
      · rcases htokens hk with ⟨hold, htf⟩ | ⟨hnew, -, -⟩
        · intro heq
          obtain rfl := (hj e he).tokens hold (htf.symm.trans heq)
          rw [hgone'] at hk
          cases hk
        · exact absurd he (hx e' hnew).not_consumes
  · have hold : ∀ st' ∈ l, ¬ st'.req.updates := fun st' hst' =>
      hupdates st' (List.mem_append_left _ hst')
    rcases law.flags (hupdates st (List.mem_append_right _ List.mem_cons_self)) hd with
      hflag | ⟨e, he, hemail⟩
    · rw [hbefore] at hflag
      rcases h.flags hold hflag with hinit | ⟨i, j', e, hlt, ⟨st', hst', he⟩, hissued, hemail⟩
      · exact .inl hinit
      · refine .inr ⟨i, j', e, hlt, (takenAt_snoc (getElem?_lt hst')).mpr ⟨st', hst', he⟩,
          hissued.snoc st, hemail⟩
    · have hissued := (hj e he).issued
      exact .inr ⟨l.length, j, e, hissued.lt, takenAt_last.mpr he, hissued.snoc st, hemail⟩

/-- **Every served request leaves what was gathered with its origins.** -/
theorem Traced.serve (h : Traced c rows l w f g lf tf) {st : Served Reg Cred}
    (hbefore : st.before = w) (law : Lawful c st) :
    ∃ f' g' lf' tf', Traced c rows (l ++ [st]) st.after f' g' lf' tf' := by
  obtain ⟨j, hj⟩ : ∃ j, ∀ e, st.Consumes e → Unshared rows l w f g lf tf e j := by
    by_cases htakes : ∃ e, st.Consumes e
    · obtain ⟨e, he⟩ := htakes
      obtain ⟨j, hj⟩ := h.taken hbefore he
      exact ⟨j, fun e' he' => he.unique he' ▸ hj⟩
    · exact ⟨0, fun e he => absurd ⟨e, he⟩ htakes⟩
  obtain ⟨d₀, hd₀, hnew⟩ := law.started
  have hstarted : ∀ {d s}, StartedAt rows st.after d s → StartedAt rows w d s ∧
      (if (w.row sessions d).isSome then f d else l.length) = f d ∧
        (if (w.row sessions d).isSome then g d else j) = g d ∨
      (d = d₀ ∧ (if (w.row sessions d).isSome then f d else l.length) = l.length ∧
        (if (w.row sessions d).isSome then g d else j) = j) ∧ st.Proves c s.sub ∧
          st.after.HasAccount ⟨s.sub, s.username, s.email⟩ := by
    intro d s hpost
    obtain ⟨hrow, hinit⟩ := hpost
    rcases hnew hrow with hold | ⟨rfl, hproves, hacc⟩
    · rw [hbefore] at hold
      refine .inl ⟨⟨hold, hinit⟩, ?_⟩
      rw [hold]
      exact ⟨rfl, rfl⟩
    · have hnone : w.row sessions d = none := by
        rw [← hbefore, World.row, List.getElem?_eq_none hd₀]
        rfl
      rw [hnone]
      exact .inr ⟨⟨rfl, rfl, rfl⟩, hproves, hacc⟩
  rcases law.challenges with ⟨e₀, hissued⟩ | hspent
  · have hupdate : ∀ {m m' : String → Option FA2Entry} {q : String → Nat} {key k : String}
        {e : FA2Entry}, m' = Function.update m key (some e₀) → m' k = some e →
        m k = some e ∧ Function.update q key l.length k = q k ∨
          some e₀ = some e ∧ k = key ∧ Function.update q key l.length k = l.length := by
      intro m m' q key k e hm hk
      rw [hm] at hk
      by_cases hkey : k = key
      · subst hkey
        rw [Function.update_self] at hk ⊢
        exact .inr ⟨hk, rfl, rfl⟩
      · rw [Function.update_of_ne hkey] at hk ⊢
        exact .inl ⟨hk, rfl⟩
    refine ⟨_, _, Function.update lf e₀.link l.length, Function.update tf e₀.nonce l.length,
      h.extend (x := some e₀) hbefore law hstarted (fun {k e} hk => ?_) (fun {k e} hk => ?_)
        (fun e he => Option.some.inj he ▸ hissued) hj⟩
    · rcases hupdate (q := lf) hissued.links hk with hold | ⟨heq, hkey, hlf⟩
      · rw [hbefore] at hold
        exact .inl hold
      · exact .inr ⟨heq, hkey.trans (congrArg _ (Option.some.inj heq)), hlf⟩
    · rcases hupdate (q := tf) hissued.tokens hk with hold | ⟨heq, hkey, htf⟩
      · rw [hbefore] at hold
        exact .inl hold
      · exact .inr ⟨heq, hkey.trans (congrArg _ (Option.some.inj heq)), htf⟩
  · refine ⟨_, _, lf, tf, h.extend (x := none) hbefore law hstarted (fun {k e} hk => .inl ⟨?_, rfl⟩)
      (fun {k e} hk => .inl ⟨?_, rfl⟩) (fun e he => by cases he) hj⟩
    · have hold := hspent.links hk
      rwa [hbefore] at hold
    · have hold := hspent.tokens hk
      rwa [hbefore] at hold

/-- What was gathered has its origins in every run. -/
theorem Recorded.traced (hunique : UniqueAccounts rows) {now : Time}
    (h : Recorded c jwt_svc wa rows l now w) :
    ∃ f g lf tf, Traced c rows l w f g lf tf := by
  induction h with
  | start => exact ⟨_, _, _, _, .start hunique⟩
  | serve _ st hbefore _ hreq hrun ih =>
      obtain ⟨f, g, lf, tf, htraced⟩ := ih
      have hsound : Sound st.before := by
        rw [hbefore]
        exact htraced.sound
      exact htraced.serve hbefore (st.lawful hsound hreq hrun)
  | expire _ e ih =>
      obtain ⟨f, g, lf, tf, htraced⟩ := ih
      exact ⟨f, g, lf, tf, htraced.expire e⟩
  | wait _ _ ih => exact ih

/-- **Every session was started by a step that proved control of its account, a step of its own,
and every confirmed address by a challenge that was taken.** -/
theorem sessions_authentic (hunique : UniqueAccounts rows) {now : Time}
    (h : Recorded c jwt_svc wa rows l now w) :
    (∃ f g : Nat → Nat,
      (∀ d s, StartedAt rows w d s → ∃ st, l[f d]? = some st ∧ st.Proves c s.sub ∧
        st.after.HasAccount ⟨s.sub, s.username, s.email⟩) ∧
      (∀ d d' s s', StartedAt rows w d s → StartedAt rows w d' s' → f d = f d' → d = d') ∧
      (∀ d s e, StartedAt rows w d s → TakenAt l (f d) e → g d < f d ∧ IssuedAt l (g d) e) ∧
      ∀ d d' s s' e e', StartedAt rows w d s → StartedAt rows w d' s' → TakenAt l (f d) e →
        TakenAt l (f d') e' → g d = g d' → d = d') ∧
    ((∀ st ∈ l, ¬ st.req.updates) → ∀ d u, w.row users d = some u → u.email_confirmed = true →
      (∃ u₀, rows[d]? = some (.user u₀) ∧ u₀.id = u.id ∧ u₀.email_confirmed = true) ∨
        ∃ i j e, j < i ∧ TakenAt l i e ∧ IssuedAt l j e ∧ e.email = u.id) := by
  obtain ⟨f, g, lf, tf, htraced⟩ := h.traced hunique
  refine ⟨⟨f, g, fun d s hs => htraced.proved hs, fun d d' s s' hs hs' => htraced.apart hs hs',
    fun d s e hs he => htraced.challenged hs he,
    fun d d' s s' e e' hs hs' he he' => htraced.once hs hs' he he'⟩, fun hupdates d u hu hflag => ?_⟩
  have hd : w.look flagged d = some u.id := by
    obtain ⟨r, hr, hprj⟩ := Option.bind_eq_some_iff.mp hu
    rw [World.look, hr, Option.bind_some, users.inj_of_prj hprj]
    change (if u.email_confirmed then some u.id else none) = _
    rw [hflag]
    rfl
  rcases htraced.flags hupdates hd with hinit | hrest
  · obtain ⟨r, hr, hshown⟩ := Option.bind_eq_some_iff.mp hinit
    obtain ⟨u₀, hu₀, hid⟩ := Option.bind_eq_some_iff.mp hshown
    obtain ⟨hconfirmed, hid⟩ := Option.ite_none_right_eq_some.mp hid
    refine .inl ⟨u₀, ?_, Option.some.inj hid, hconfirmed⟩
    rw [hr, users.inj_of_prj hu₀]
    rfl
  · exact .inr hrest

end Runs

/-- Alice, before she has confirmed her address. -/
def unconfirmed : List Record :=
  [.user { sample_user "correct horse" with email_confirmed := false }]

/-- She asks for a challenge and follows its link. -/
theorem sessions_authentic_for_alice : ∃ l w,
    Recorded sample_crates sample_jwt sample_webauthn unconfirmed l 0 w ∧
      (∃ d s, StartedAt unconfirmed w d s ∧ s.sub = 7) ∧
      ∀ d u, w.row users d = some u → u.email_confirmed = true →
        ∃ i j e, j < i ∧ TakenAt l i e ∧ IssuedAt l j e ∧ e.email = u.id := by
  have hruns : ∃ w₁ resp, Prog.exec? (World.answer sample_crates) 0
      (fun w o ch => decide (LetInAs none w o ch))
      [.go, .bytes (List.replicate 32 1), .bytes (List.replicate 32 2), .number 123456, .go, .go,
        .go, .key 1, .go, .go] (handlers.challenge1 "alice@example.com") (World.of unconfirmed) =
        some (resp, w₁) ∧ ∃ w₂ resp' s, Prog.exec? (World.answer sample_crates) 0
          (fun w o ch => decide (LetInAs none w o ch)) [.go, .go, .go, .go, .time 0, .time 0, .key 5]
          (handlers.confirm sample_crates (token_of 1) ⟨"10.0.0.1", "curl"⟩) w₁ =
            some (resp', w₂) ∧ w₂.row sessions 2 = some s ∧ s.sub = 7 :=
    ⟨_, _, rfl, _, _, _, rfl, rfl, rfl⟩
  obtain ⟨w₁, resp, hrun, w₂, resp', s, hrun', hs, hsub⟩ := hruns
  have hexec := (Prog.exec_of_exec? hrun).mono fun _ _ _ h => of_decide_eq_true h
  have hexec' := (Prog.exec_of_exec? hrun').mono fun _ _ _ h => of_decide_eq_true h
  have hstart : Recorded sample_crates sample_jwt sample_webauthn unconfirmed [] 0
      (World.of unconfirmed) := .start 0
  have hrec := (hstart.serve ⟨.challenge1 "alice@example.com", none, 0, resp, _, w₁⟩ rfl (Int.le_refl 0)
    (fun h => h) hexec).serve ⟨.confirm (token_of 1) ⟨"10.0.0.1", "curl"⟩, none, 0, resp', w₁, w₂⟩ rfl
      (Int.le_refl 0) (fun h => h) hexec'
  have hkeys : UniqueAccounts unconfirmed := by
    intro d d' u u' hd hd' _
    rcases d with _ | d <;> rcases d' with _ | d' <;> simp [unconfirmed] at hd hd' ⊢
  have hauthentic := sessions_authentic hkeys hrec
  refine ⟨_, w₂, hrec, ⟨2, s, ⟨hs, by simp [unconfirmed]⟩, hsub⟩, fun d u hu hflag => ?_⟩
  refine (hauthentic.2 (fun st hst => ?_) d u hu hflag).resolve_left ?_
  · rcases List.mem_cons.mp hst with rfl | hst
    · exact fun h => h
    · rcases List.mem_cons.mp hst with rfl | hst
      · exact fun h => h
      · cases hst
  · intro hpost
    obtain ⟨u₀, hu₀, _, hconfirmed⟩ := hpost
    rcases d with _ | d
    · cases hu₀
      cases hconfirmed
    · simp [unconfirmed] at hu₀

end Authnz
