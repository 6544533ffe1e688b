/-
What a client can conclude from an answer.

The deeds of a call account for its rows, and its answer is true to its deeds.  So a
request that was refused has left no new row and next to no change, and what a request
that was accepted asked for is in the history of the database, in any run.
-/
import Mathlib.Logic.Function.Iterate
import Authnz.Proofs.Answering
import Authnz.Proofs.Custody

namespace Authnz

open Basis

/-! ### What is in the table -/

section Left

variable {Reg Cred : Type}

/-- What a request that fails may have made of a row: a password change may have set the new hash
and ended sessions, a confirmation the flag, a passkey login the passkey's data; and the deletion of
a user who is not there takes what refers to the user. -/
inductive LeftBehind (c : Crates) : ServiceCall Reg Cred → Record → Option Record → Prop
  | password {cookie req params u} (salt : Nat) :
      LeftBehind c (.route (.change_password cookie req params)) (.user u)
        (some (.user (u.with_hash (c.bcrypt_hash req.new_password salt))))
  | session {cookie req params s} :
      LeftBehind c (.route (.change_password cookie req params)) (.session s) none
  | confirm {link params u} : LeftBehind c (.route (.confirm link params)) (.user u)
      (some (.user { u with email_confirmed := true }))
  | confirm_token {token nonce params u} :
      LeftBehind c (.route (.confirm_token token nonce params)) (.user u)
        (some (.user { u with email_confirmed := true }))
  | passkey {username credential params p} (data : String) (now : Time) :
      LeftBehind c (.route (.passkey_login_finish username credential params))
        (.passkey_credential p)
        (some (.passkey_credential { p with passkey_data := data, last_used_at := some now }))
  | orphan {cookie id r} (hr : Cascades id r = true) (huser : users.prj r = none) :
      LeftBehind c (.delete_user cookie id) r none

/-- The same, and refresh tokens revoked, which is the last thing a password change does. -/
inductive Touched (c : Crates) (call : ServiceCall Reg Cred) : Record → Option Record → Prop
  | left {r v} (h : LeftBehind c call r v) : Touched c call r v
  | revoked {t : RefreshToken} :
      Touched c call (.refresh_token t) (some (.refresh_token { t with revoked := some true }))

theorem Touched.trans {c : Crates} {call : ServiceCall Reg Cred} (r r' : Record) (v : Option Record)
    (h : Touched c call r (some r')) (h' : Touched c call r' v) : Touched c call r v := by
  cases h with
  | revoked =>
      cases h' with
      | left h' => cases h' with | orphan hr _ => exact .left (.orphan hr rfl)
      | revoked => exact .revoked
  | left h =>
      cases h with
      | password salt =>
          cases h' with
          | left h' => cases h' with | password salt' => exact .left (.password salt')
      | confirm =>
          cases h' with
          | left h' => cases h' with | confirm => exact .left .confirm
      | confirm_token =>
          cases h' with
          | left h' => cases h' with | confirm_token => exact .left .confirm_token
      | passkey data now =>
          cases h' with
          | left h' => cases h' with | passkey data' now' => exact .left (.passkey data' now')

/-- A token comes of a token only. -/
theorem Touched.token {c : Crates} {call : ServiceCall Reg Cred} {r : Record} {t : RefreshToken}
    (h : Touched c call r (some (.refresh_token t))) : ∃ t₀, r = .refresh_token t₀ := by
  generalize hv : some (Record.refresh_token t) = v at h
  cases h with
  | left h => cases h <;> cases hv
  | revoked => exact ⟨_, rfl⟩

/-- What a request for a change of a row makes of it. -/
inductive EditOf : ServiceCall Reg Cred → Record → Option Record → Prop
  | update_user {cookie id dto u} (hu : u.id = id) :
      EditOf (.route (.update_user cookie id dto)) (.user u) (some (.user (u.update dto)))
  | passkey_remove {cookie row_id p} (hp : p.id = row_id) :
      EditOf (.route (.passkey_remove cookie row_id)) (.passkey_credential p) none
  /-- Once or more. -/
  | update_session {cookie id change s} (n : Nat) (hs : s.id = id) :
      EditOf (.update_session cookie id change) (.session s)
        (some (.session (Nat.iterate change.1 (n + 1) s)))
  | delete_session {cookie id s} (hs : s.id = id) :
      EditOf (.delete_session cookie id) (.session s) none

theorem update_twice (u : User) (dto : UpdateUser) : (u.update dto).update dto = u.update dto := by
  obtain ⟨username, email_confirmed⟩ := dto
  cases username <;> cases email_confirmed <;> rfl

theorem EditOf.trans {call : ServiceCall Reg Cred} (r r' : Record) (v : Option Record)
    (h : EditOf call r (some r')) (h' : EditOf call r' v) : EditOf call r v := by
  cases h with
  | update_user hu =>
      cases h' with
      | update_user _ =>
          rw [update_twice]
          exact .update_user hu
  | @update_session cookie id change s n hs =>
      cases h' with
      | update_session m _ =>
          rw [← Function.iterate_add_apply]
          exact .update_session (m + 1 + n) hs

end Left

section Sought

variable {Reg Cred : Type} (jwt_svc : JwtService) (wa : Webauthn Reg Cred) (rows : List Record)
  (evs : ServiceEvents Reg Cred) (cfg : ServiceState Reg Cred)

end Sought

section Runs

variable {Reg Cred : Type} {jwt_svc : JwtService} {wa : Webauthn Reg Cred} {rows : List Record}
  {evs : ServiceEvents Reg Cred} {cfg : ServiceState Reg Cred} {k : Nat}
  {call : ServiceCall Reg Cred} {resp : HttpResponse}

/-- It is a row of a user, a session or a passkey that the deed is about, or an orphan. -/
theorem row_of_unfinished {make : Record → Option Record → Prop} {y : Doing Record}
    {past : Option (Option Record)} {v : Option Record} (hy : Unfinished call y)
    (h : y.Leaves make past v) : ∃ r₀ r, past = some (some r₀) ∧ Doing.Reaches make r₀ r ∧ make r v ∧
      ((∀ t, r ≠ .refresh_token t) ∧ (∀ cookie id, call ≠ .delete_user cookie id) ∨
        ∃ cookie id, call = .delete_user cookie id ∧ Cascades id r = true ∧ users.prj r = none) := by
  have hsel : ∀ {τ : Type} {T : Relation τ} {q : τ → Bool} {r : Record}, T.sel q r = true →
      (∀ t, T.prj (.refresh_token t) = none) → ∀ t, r ≠ .refresh_token t := by
    rintro τ T q r hr hnone t rfl
    rw [Relation.sel, hnone] at hr
    cases hr
  rcases past with _ | _ | r₀
  · cases hy <;> exact h.elim
  · cases hy <;> exact h.elim
  cases hy with
  | password | sessions | passkey =>
      obtain ⟨r, hreaches, hr, -, hmake⟩ := h
      exact ⟨r₀, r, rfl, hreaches, hmake, .inl ⟨hsel hr fun _ => rfl, fun _ _ h => by cases h⟩⟩
  | confirm | confirm_token =>
      obtain ⟨r, hreaches, hr, hmake⟩ := h
      exact ⟨r₀, r, rfl, hreaches, hmake, .inl ⟨hsel hr fun _ => rfl, fun _ _ h => by cases h⟩⟩
  | @orphan cookie id row hrow =>
      obtain ⟨r, hreaches, hr, heq, hmake⟩ := h
      obtain rfl : row = r := heq
      exact ⟨r₀, row, rfl, hreaches, hmake, .inr ⟨cookie, id, rfl, hr, hrow⟩⟩

variable (hrun : (whole_service jwt_svc wa).run ⟨World.of rows, []⟩ evs = some cfg)
  (hcall : cfg.call k = some call)

include hrun hcall

theorem answered_truly (hview : jwt_svc.crates.ViewsetDocumented) (hres : cfg.result k = some resp) :
    Honest call (deeds (cfg.log k)) resp :=
  Protocol.run_folding (answers_truly jwt_svc wa hview) hrun hcall hres

/-- What a call that may fail halfway makes of rows. -/
theorem touched_of_unfinished {y : Doing Record} (hy : Unfinished call y)
    (hnot : ∀ cookie id, call ≠ .delete_user cookie id) (r : Record) (v : Option Record)
    (h : HasMade (mandates jwt_svc wa) cfg k r v) : Touched jwt_svc.crates call r v := by
  obtain ⟨call', past, hcall', hpast, hmake⟩ := h
  obtain rfl := Option.some.inj (hcall.symm.trans hcall')
  cases hmake with
  | change_password hauth hfound hverify hstrong hhash hu =>
      obtain ⟨salt, rfl⟩ := hashed_then hrun hcall (hpast.subset hhash)
      exact .left (.password salt)
  | @confirm_email _ _ u hconfirms =>
      generalize u.id = id at hconfirms
      cases hconfirms with
      | confirm => exact .left .confirm
      | confirm_token => exact .left .confirm_token
  | revoke_session hrotates =>
      cases hrotates with
      | change_password => exact .left .session
      | confirm_password_reset => cases hy
  | revoke_token => exact .revoked
  | passkey_used => exact .left (.passkey _ _)
  | delete_user => exact absurd rfl (hnot _ _)
  | _ => cases hy

/-- A row that a failed request has changed has become what a failure may leave behind. -/
theorem left_behind {y : Doing Record} {past : Option (Option Record)} {v : Option Record}
    (hy : Unfinished call y) (h : y.Leaves (HasMade (mandates jwt_svc wa) cfg k) past v) :
    ∃ r, past = some (some r) ∧ LeftBehind jwt_svc.crates call r v := by
  obtain ⟨r₀, r, rfl, hreaches, hmade, ⟨htoken, hnot⟩ | ⟨cookie, id, rfl, hcascades, huser⟩⟩ :=
    row_of_unfinished hy h
  · have hstep := touched_of_unfinished hrun hcall hy hnot
    have htouched : Touched jwt_svc.crates call r₀ v := by
      clear h htoken
      induction hreaches generalizing v with
      | refl => exact hstep _ _ hmade
      | tail _ hlast ih => exact Touched.trans _ _ _ (ih hlast) (hstep _ _ hmade)
    have hfrom := hstep r v hmade
    refine ⟨r₀, rfl, ?_⟩
    generalize hv : v = v' at htouched
    cases htouched with
    | left h => exact hv ▸ h
    -- no token has been revoked before an error
    | revoked =>
        subst hv
        obtain ⟨t, rfl⟩ := hfrom.token
        exact absurd rfl (htoken t)
  -- a deletion makes no other row of one
  · have hgone : ∀ {r v}, HasMade (mandates jwt_svc wa) cfg k r v → v = none := by
      rintro r v ⟨call', past, hcall', -, hmake⟩
      obtain rfl := Option.some.inj (hcall.symm.trans hcall')
      cases hmake with
      | delete_user => rfl
      | confirm_email hconfirms => cases hconfirms
      | revoke_token hrotates => cases hrotates
      | revoke_session hrotates => cases hrotates
    rcases Relation.ReflTransGen.cases_tail hreaches with rfl | ⟨z, -, hz⟩
    · obtain rfl := hgone hmade
      exact ⟨_, rfl, .orphan hcascades huser⟩
    · cases hgone hz

end Runs

/-- **Refusals leave next to no trace**: whatever a request answered with an error has written, at
any time before or after the answer and whatever else was in progress, is no new row, and nothing
but what `LeftBehind` lists.  A commit that fails has committed nothing. -/
theorem refusals_leave_no_trace {Reg Cred : Type} (jwt_svc : JwtService) (wa : Webauthn Reg Cred)
    (hview : jwt_svc.crates.ViewsetDocumented) (rows : List Record)
    (evs : ServiceEvents Reg Cred) (cfg : ServiceState Reg Cred)
    (hrun : (whole_service jwt_svc wa).run ⟨World.of rows, []⟩ evs = some cfg) (k : Nat)
    (call : ServiceCall Reg Cred) (resp : HttpResponse) (hcall : cfg.call k = some call)
    (hres : cfg.result k = some resp) (hrefused : 400 ≤ resp.status) (d : Nat) (slot : Slot Record)
    (pre post : List (Version Record)) (x : Version Record) (hslot : cfg.shared.db[d]? = some slot)
    (hversions : slot.versions = pre ++ x :: post) (hx : x.writer = some k) :
    ∃ z rest r, post = z :: rest ∧ z.row = some r ∧ LeftBehind jwt_svc.crates call r x.row := by
  have hacc := run_accounts (calls_entitled jwt_svc wa) hrun k
  obtain ⟨y, hy, hleaves⟩ := hacc.written hslot hversions hx
  have hunfinished := (answered_truly hrun hcall hview hres).refused hrefused y hy hleaves.real
  obtain ⟨r, hpast, hleft⟩ := left_behind hrun hcall hunfinished hleaves
  cases post with
  | nil => cases hpast
  | cons z rest => exact ⟨z, rest, r, rfl, Option.some.inj hpast, hleft⟩

/-- Alice changes her password, and the service cannot read her account again. -/
def changed_and_unread : ServiceEvents Passkey (List UInt8) :=
  .spawn (.route (.change_password (uuid_text 1) ⟨"password", "violet ladder engine cactus"⟩
      alices_browser)) ::
    serving 0 [.identity as_alice, .go, .number 1, .go, .go, .go, .sessions [sample_session], .go,
      .go, .go, .fail]

/-- The change is refused, and the new password is in force. -/
theorem refused_change_leaves_the_password : ∃ cfg call resp slot pre post x,
    (whole_service sample_jwt sample_webauthn).run ⟨World.of alice_with_session, []⟩
      changed_and_unread = some cfg ∧ cfg.call 0 = some call ∧ cfg.result 0 = some resp ∧
    400 ≤ resp.status ∧
    cfg.shared.db[0]? = some slot ∧ slot.versions = pre ++ x :: post ∧ x.writer = some 0 ∧
    ∃ z rest r, post = z :: rest ∧ z.row = some r ∧
      LeftBehind sample_jwt.crates call r x.row :=
  ⟨_, _, _, _, [], _, _, rfl, rfl, rfl, by decide, rfl, rfl, rfl,
    refusals_leave_no_trace sample_jwt sample_webauthn sample_viewsets alice_with_session
      changed_and_unread _ rfl 0 _ _ rfl rfl (by decide) 0 _ [] _ _ rfl rfl rfl⟩

end Authnz
