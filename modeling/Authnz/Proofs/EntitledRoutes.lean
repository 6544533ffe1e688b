/-
Every route does only what its request is entitled to.

The passwordless and the passkey functions, and then the handlers behind the routes.
-/
import Authnz.Proofs.Entitled

namespace Authnz

open Basis Rights

section Functions

variable {Reg Cred : Type} {jwt_svc : JwtService} {wa : Webauthn Reg Cred}
  {call : ServiceCall Reg Cred} {log : Replies} {β ε : Type}

/-! ### Passwordless logins -/

/-- A challenge is drawn and put into both caches. -/
theorem learns_release_pair {u : User} (hcall : Challenges call log u)
    {Q : Replies → ChallengeRequested → Prop}
    (hQ : ∀ log' (e : FA2Entry), log <:+ log' → HasReleased log' u e →
      Q log' ⟨e.token, e.link, e.nonce⟩) :
    Learns (mandates jwt_svc wa) call (PasswdlessService.release_pair u.id) log Q := by
  refine learns_bind (learns_raw_token fun bytes => learns_bind (learns_raw_token fun bytes' => ?_))
  have hsome : 100000 < 999999 := by decide
  refine learns_bind (learns_ask rfl (fun _ => rfl) (fun _ => .other hsome) fun token => ?_)
  change Nat at token
  have hlater : log <:+ ⟨.random_range 100000 999999, token⟩ :: ⟨.fill 32, bytes'⟩ ::
      ⟨.fill 32, bytes⟩ :: log := ⟨[_, _, _], rfl⟩
  let e : FA2Entry :=
    { link := base64url bytes, token := token, email := u.id, nonce := base64url bytes' }
  have hdrew : Drew (⟨.random_range 100000 999999, token⟩ :: ⟨.fill 32, bytes'⟩ ::
      ⟨.fill 32, bytes⟩ :: log) e := ⟨bytes, bytes', ⟨[], log, rfl⟩, rfl, rfl⟩
  refine learns_bind (learns_ask rfl (fun _ => rfl) (fun _ => ?_) fun _ => ?_)
  · exact MayPut.tokens_insert (hcall.later hlater) hdrew rfl
  refine learns_bind (learns_ask rfl (fun _ => rfl) (fun _ => ?_) fun _ => ?_)
  · exact MayPut.links_insert (hcall.later (hlater.trans (List.suffix_cons _ _)))
      (hdrew.later (List.suffix_cons _ _)) List.mem_cons_self rfl
  exact learns_ret (hQ _ e (hlater.trans ⟨[_, _], rfl⟩) ⟨hdrew.later ⟨[_, _], rfl⟩,
    List.mem_cons_of_mem _ List.mem_cons_self, List.mem_cons_self, rfl⟩)

/-- What is published is the challenge that was put into the caches. -/
theorem learnsE_publish_challenge {u : User} {e : FA2Entry} (hcall : Challenges call log u)
    (hreleased : HasReleased log u e) {Q : Replies → Unit → Prop}
    {E : Replies → PasswdlessError → Prop} (hQ : ∀ log', Q log' ())
    (hE : ∀ log' e, E log' e) :
    LearnsE (mandates jwt_svc wa) call
      (PasswdlessService.publish_challenge ⟨e.token, e.link, e.nonce⟩) log Q E := by
  refine learnsE_bind (learnsE_attempt (learns_begin fun r => ?_))
  cases r with
  | error e => exact hE _ _
  | ok r =>
      have hlater := List.suffix_cons (⟨.sql .begin, Except.ok r⟩ : (o : Op) × o.Reply) log
      refine learnsE_in_tx fun _ => goesE_bind (goesE_mono (goesE_insert (fun _ => ?_)
        (.inl outbox_clashes)) (fun log₁ _ heq => ?_) fun log' e hl => ⟨hl, hE _ _⟩)
      · exact MayAdd.challenge_event (hcall.later hlater) (hreleased.later hlater)
      · have hl := suffix_of_cons heq
        exact goesE_commit ⟨hl.trans (List.suffix_cons _ _), hQ _⟩
          fun log' e hl' => ⟨hl.trans hl', hE _ _⟩

/-- A challenge is drawn for an account the lookup has found. -/
theorem learnsE_challenge {q : User → Bool}
    (hcall : ∀ log' u, Found users q log' u → Challenges call log' u) {Q : Replies → Unit → Prop}
    {E : Replies → PasswdlessError → Prop} (hQ : ∀ log', Q log' ()) (hE : ∀ log' e, E log' e) :
    LearnsE (mandates jwt_svc wa) call (challenge_of (lookup q)) log Q E := by
  refine learnsE_bind (learnsE_lift (learns_mono (learnsE_lookup
    (Q := fun log' u => Found users q log' u) (E := fun _ _ => True)
    (fun log' u _ hu => hu) fun _ _ _ => trivial) fun log' r _ hr => ?_))
  cases r with
  | error e => exact learnsE_throw (hE _ _)
  | ok u =>
      refine learnsE_bind (learnsE_lift (learns_release_pair (hcall log' u hr)
        fun log'' e hlater hreleased => ?_))
      exact learnsE_publish_challenge ((hcall log' u hr).later hlater) hreleased hQ hE

/-- A link is confirmed by the entry it was taken from. -/
theorem learnsE_confirm_link {link : String} {params : SessionParams} {Q : Replies → Uuid → Prop}
    {E : Replies → PasswdlessError → Prop}
    (hQ : ∀ log' (e : FA2Entry), ⟨.links_remove link, some e⟩ ∈ log' → Q log' e.email)
    (hE : ∀ log' e, E log' e) :
    LearnsE (mandates jwt_svc wa) (.route (.confirm link params))
      (PasswdlessService.confirm_link link) log Q E := by
  refine learnsE_bind (learnsE_lift (learns_ask rfl (fun _ => rfl) (fun _ => .other trivial)
    fun r => ?_))
  change Option FA2Entry at r
  cases r with
  | none => exact learnsE_throw (hE _ _)
  | some e =>
      refine learnsE_bind (learnsE_lift (learns_ask rfl (fun _ => rfl) (fun _ => .other trivial)
        fun _ => learnsE_ret (hQ _ e ?_)))
      exact List.mem_cons_of_mem _ List.mem_cons_self

/-- A code is confirmed by the entry of its nonce, if it is the right one. -/
theorem learnsE_confirm_token {token : Nat} {nonce : String} {params : SessionParams}
    {Q : Replies → Uuid → Prop} {E : Replies → PasswdlessError → Prop}
    (hQ : ∀ log' (e : FA2Entry), ⟨.tokens_remove nonce, some e⟩ ∈ log' → e.token = token →
      Q log' e.email)
    (hE : ∀ log' e, E log' e) :
    LearnsE (mandates jwt_svc wa) (.route (.confirm_token token nonce params))
      (PasswdlessService.confirm_token token nonce) log Q E := by
  refine learnsE_bind (learnsE_lift (learns_ask rfl (fun _ => rfl) (fun _ => .other trivial)
    fun r => ?_))
  change Option FA2Entry at r
  cases r with
  | none => exact learnsE_throw (hE _ _)
  | some e =>
      dsimp only
      by_cases ht : FA2Entry.token e ≠ token
      · rw [if_pos ht]
        exact learnsE_throw (hE _ _)
      rw [if_neg ht]
      refine learnsE_bind (learnsE_lift (learns_ask rfl (fun _ => rfl) (fun _ => .other trivial)
        fun _ => learnsE_ret (hQ _ e ?_ (by simpa using ht))))
      exact List.mem_cons_of_mem _ List.mem_cons_self

/-! ### Passkeys -/

/-- The passkeys read are those of the user. -/
theorem learnsE_credentials_for_user {user_id : Uuid} {Q : Replies → List Passkey → Prop}
    {E : Replies → RepoError → Prop}
    (hQ : ∀ log' l keys, log <:+ log' →
      Listed passkey_credentials (fun k => k.user_id == user_id) log' l →
      (l.mapM fun k => wa.from_str k.passkey_data) = some keys → Q log' keys)
    (hE : ∀ log' e, log <:+ log' → E log' e) :
    LearnsE (mandates jwt_svc wa) call (CredsRepo.credentials_for_user wa user_id) log Q E := by
  refine learnsE_bind (learnsE_select (fun rows => ?_) hE)
  have hlater : log <:+ ⟨.sql (.select (passkey_credentials.sel fun k => k.user_id == user_id)),
      Except.ok rows⟩ :: log := List.suffix_cons _ _
  cases hread : (rows.filterMap passkey_credentials.prj).mapM fun k => wa.from_str k.passkey_data with
  | none => exact learnsE_throw (hE _ _ hlater)
  | some keys => exact learnsE_ret (hQ _ _ keys hlater ⟨rows, List.mem_cons_self, rfl⟩ hread)

/-- The clock in seconds. -/
theorem learns_now_secs {Q : Replies → Nat → Prop}
    (hQ : ∀ log' n, log <:+ log' → Q log' n) :
    Learns (mandates jwt_svc wa) call now_secs log Q :=
  learns_bind (learns_now fun _ => learns_ret (hQ _ _ (List.suffix_cons _ _)))

/-- The state of a registration ceremony is stored under the key of its user. -/
theorem learns_store_reg_state {user_id : Uuid} {state : PasskeyRegistration}
    (hput : ∀ log' (timed : TimedRegState), log <:+ log' → timed.state = state →
      MayPut jwt_svc wa call log' (.reg_set (jwt_svc.crates.uuid_to_string user_id) timed))
    {Q : Replies → Unit → Prop}
    (hQ : ∀ log' (timed : TimedRegState)
        (r : Op.Reply (.reg_set (jwt_svc.crates.uuid_to_string user_id) timed)),
      log <:+ log' → timed.state = state →
      ⟨.reg_set (jwt_svc.crates.uuid_to_string user_id) timed, r⟩ ∈ log' → Q log' ()) :
    Learns (mandates jwt_svc wa) call (PasskeyState.store_reg_state jwt_svc.crates user_id state)
      log Q := by
  refine learns_bind (learns_now_secs fun log₁ n hlater => ?_)
  refine learns_bind (learns_ask rfl (fun _ => rfl) (fun _ => hput log₁ _ hlater rfl) fun r => ?_)
  exact learns_ret (hQ _ _ r (hlater.trans (List.suffix_cons _ _)) rfl List.mem_cons_self)

/-- That of a login ceremony is stored under the username. -/
theorem learns_store_auth_state {username : String} {state : PasskeyAuthentication}
    (hput : ∀ log' (timed : TimedAuthState), log <:+ log' → timed.state = state →
      MayPut jwt_svc wa call log' (.auth_set username timed))
    {Q : Replies → Unit → Prop}
    (hQ : ∀ log' (timed : TimedAuthState) (r : Op.Reply (.auth_set username timed)),
      log <:+ log' → timed.state = state → ⟨.auth_set username timed, r⟩ ∈ log' → Q log' ()) :
    Learns (mandates jwt_svc wa) call (PasskeyState.store_auth_state username state) log Q := by
  refine learns_bind (learns_now_secs fun log₁ n hlater => ?_)
  refine learns_bind (learns_ask rfl (fun _ => rfl) (fun _ => hput log₁ _ hlater rfl) fun r => ?_)
  exact learns_ret (hQ _ _ r (hlater.trans (List.suffix_cons _ _)) rfl List.mem_cons_self)

/-- A state that is taken was in the cache. -/
theorem learns_take_reg_state {user_id : Uuid} {Q : Replies → Option PasskeyRegistration → Prop}
    (hsome : ∀ log' (timed : TimedRegState), log <:+ log' →
      ⟨.reg_get (jwt_svc.crates.uuid_to_string user_id), Except.ok (some timed)⟩ ∈ log' →
      Q log' (some timed.state))
    (hnone : ∀ log', log <:+ log' → Q log' none) :
    Learns (mandates jwt_svc wa) call (PasskeyState.take_reg_state jwt_svc.crates user_id) log Q := by
  refine learns_bind (learns_ask rfl (fun _ => rfl) (fun _ => .other trivial) fun got => ?_)
  change Except Failed (Option TimedRegState) at got
  have hgot := List.suffix_cons
    (⟨.reg_get (jwt_svc.crates.uuid_to_string user_id), got⟩ : (o : Op) × o.Reply) log
  cases got with
  | error e => exact learns_ret (hnone _ hgot)
  | ok found =>
      cases found with
      | none => exact learns_ret (hnone _ hgot)
      | some timed =>
          refine learns_bind (learns_ask rfl (fun _ => rfl) (fun _ => .other trivial) fun _ => ?_)
          refine learns_bind (learns_now_secs fun log₁ n hlater => learns_ret ?_)
          have hall := hgot.trans ((List.suffix_cons _ _).trans hlater)
          split
          · exact hnone _ hall
          · exact hsome _ timed hall (hlater.subset (List.mem_cons_of_mem _ List.mem_cons_self))

/-- So was that of a login. -/
theorem learns_take_auth_state {username : String}
    {Q : Replies → Option PasskeyAuthentication → Prop}
    (hsome : ∀ log' (timed : TimedAuthState), log <:+ log' →
      ⟨.auth_get username, Except.ok (some timed)⟩ ∈ log' → Q log' (some timed.state))
    (hnone : ∀ log', log <:+ log' → Q log' none) :
    Learns (mandates jwt_svc wa) call (PasskeyState.take_auth_state username) log Q := by
  refine learns_bind (learns_ask rfl (fun _ => rfl) (fun _ => .other trivial) fun got => ?_)
  change Except Failed (Option TimedAuthState) at got
  have hgot := List.suffix_cons (⟨.auth_get username, got⟩ : (o : Op) × o.Reply) log
  cases got with
  | error e => exact learns_ret (hnone _ hgot)
  | ok found =>
      cases found with
      | none => exact learns_ret (hnone _ hgot)
      | some timed =>
          refine learns_bind (learns_ask rfl (fun _ => rfl) (fun _ => .other trivial) fun _ => ?_)
          refine learns_bind (learns_now_secs fun log₁ n hlater => learns_ret ?_)
          have hall := hgot.trans ((List.suffix_cons _ _).trans hlater)
          split
          · exact hnone _ hall
          · exact hsome _ timed hall (hlater.subset (List.mem_cons_of_mem _ List.mem_cons_self))

/-- The passkey of a finished ceremony is stored for the user who finished it. -/
theorem learnsE_insert_credential {cookie : String} {label : Option String} {credential : Reg}
    {id : Identity} {timed : TimedRegState} {passkey : Passkey} (hauth : Authenticated log cookie id)
    (hgot : ⟨.reg_get (jwt_svc.crates.uuid_to_string id.sub), Except.ok (some timed)⟩ ∈ log)
    (hfinish : wa.finish_passkey_registration credential timed.state = .ok passkey)
    {Q : Replies → Unit → Prop} {E : Replies → RepoError → Prop} (hQ : ∀ log', Q log' ())
    (hE : ∀ log' e, E log' e) :
    LearnsE (mandates jwt_svc wa) (.route (.passkey_register_finish cookie label credential))
      (CredsRepo.insert_credential wa id.sub passkey label) log Q E := by
  unfold CredsRepo.insert_credential
  dsimp only
  cases hdata : wa.to_string passkey with
  | none => exact learnsE_throw (hE _ _)
  | some data =>
      refine learnsE_bind (learnsE_lift (learns_now fun now => ?_))
      refine learnsE_bind (learns_insert (fun n => ?_) (fun k => learnsE_ret (hQ _))
        fun log' e _ => hE _ _)
      exact MayAdd.passkey (List.mem_cons_of_mem _ hauth) (List.mem_cons_of_mem _ hgot) hfinish hdata
        List.mem_cons_self

/-- The counter is written back for a login that has passed its ceremony. -/
theorem learns_refresh_counter {username : String} {credential : Cred} {params : SessionParams}
    {r : UserResponse} {timed : TimedAuthState} {result : AuthenticationResult} {user_id : Uuid}
    (hvouched : Vouched jwt_svc wa (.route (.passkey_login_finish username credential params)) log r
      params)
    (hgot : ⟨.auth_get (trim username), Except.ok (some timed)⟩ ∈ log)
    (hfinish : wa.finish_passkey_authentication credential timed.state = .ok result)
    {Q : Replies → Unit → Prop} (hQ : ∀ log', log <:+ log' → Q log' ()) :
    Learns (mandates jwt_svc wa) (.route (.passkey_login_finish username credential params))
      (passkey_login.refresh_counter wa user_id result) log Q := by
  refine learns_run (learnsE_credentials_for_user (fun log₁ l keys hlater hlisted hread => ?_)
    fun log' e hlater => learns_ret (hQ _ hlater))
  dsimp only
  cases hfind : keys.find? fun k => k.cred_id == result.cred_id with
  | none => exact learns_ret (hQ _ hlater)
  | some key =>
      have hid : key.cred_id = result.cred_id := by simpa using List.find?_some hfind
      dsimp only
      split
      · rename_i key' hupdate
        refine learns_run ?_
        unfold CredsRepo.update_credential
        dsimp only
        cases hdata : wa.to_string key' with
        | none => exact learnsE_throw (learns_ret (hQ _ hlater))
        | some data =>
            refine learnsE_bind (learnsE_lift (learns_now fun now => ?_))
            have hnow := hlater.trans (List.suffix_cons (⟨.now, now⟩ : (o : Op) × o.Reply) log₁)
            refine learnsE_bind (learns_change (fun log' k hl hk => ?_) (fun _ => rfl)
              (fun past rows hl _ => learnsE_ret (learns_ret (hQ _ ?_)))
              fun log' e hl => learns_ret (hQ _ (hnow.trans hl)))
            · rw [passkey_credentials.set_inj]
              have hall := hnow.trans hl
              exact MayMake.passkey_used (hvouched.later hall) (hall.subset hgot) hfinish hid hupdate
                hdata (hl.subset List.mem_cons_self) (by simpa using hk)
            · exact hnow.trans (hl.trans (List.suffix_cons _ _))
      · exact learns_ret (hQ _ hlater)

/-! ### Handlers -/

/-- A cookie for the session the call has started. -/
theorem gives_session {r : UserResponse} {params : SessionParams} {new : NewSession} {s : Session}
    {body : Body} (hbody : MayShow jwt_svc wa call log body)
    (hvouched : Vouched jwt_svc wa call log r params) (hstarted : Started log new s)
    (hsub : new.sub = r.id) :
    MayGive jwt_svc wa call log ⟨200, some (session_cookie jwt_svc.crates s.id), body⟩ :=
  ⟨fun _ hk => .inr ⟨new, s, r, params, (Option.some.inj hk).symm, hstarted, hvouched, hsub⟩, hbody⟩

/-- A body the call may show, without a cookie. -/
theorem gives_body {status : Nat} {body : Body} (h : MayShow jwt_svc wa call log body) :
    MayGive jwt_svc wa call log (.json status body) := by
  refine ⟨fun k hk => ?_, h⟩
  cases hk

/-- A session is started for an account that has been vouched for. -/
theorem learns_start_session {u : User} {params : SessionParams}
    (hvouched : ∀ log', log <:+ log' → Vouched jwt_svc wa call log' (UserResponse.of u) params) :
    Learns (mandates jwt_svc wa) call (handlers.start_session jwt_svc.crates u params) log
      (MayGive jwt_svc wa call) :=
  learns_session hvouched
    (fun log' _ _ hlater hstarted hsub => learns_ret
      (gives_session (.nothing .empty) (hvouched log' hlater) hstarted hsub))
    fun _ e _ => learns_ret (gives_auth_error e)

/-- So is one for the account of a confirmed challenge. -/
theorem learns_start_confirmed_session {user_id : Uuid} {params : SessionParams}
    (hvouched : ∀ log' r, log <:+ log' → Retrieved log' user_id r →
      Vouched jwt_svc wa call log' r params)
    (hconfirms : ∀ log', log <:+ log' → Confirms call log' user_id) :
    Learns (mandates jwt_svc wa) call
      (handlers.start_confirmed_session jwt_svc.crates user_id params) log
      (MayGive jwt_svc wa call) := by
  refine learns_run (learnsE_retrieve (fun r => ?_) fun log' e _ => learns_ret (gives_finish 500))
  have hr := List.suffix_cons (⟨.retrieve user_id, Except.ok r⟩ : (o : Op) × o.Reply) log
  refine learns_bind (learns_ask rfl (fun _ => rfl) (fun hw => ⟨hw, fun u hu => ?_⟩)
    fun updated => ?_)
  · subst hu
    exact MayMake.confirm_email (hconfirms _ hr)
  have hboth := hr.trans (List.suffix_cons
    (⟨.update user_id ⟨none, some true⟩, updated⟩ : (o : Op) × o.Reply) _)
  have hkept : ∀ log', ⟨.update user_id ⟨none, some true⟩, updated⟩ ::
      ⟨.retrieve user_id, Except.ok r⟩ :: log <:+ log' → Vouched jwt_svc wa call log' r params :=
    fun log' hlater => hvouched log' r (hboth.trans hlater)
      (hlater.subset (List.mem_cons_of_mem _ List.mem_cons_self))
  refine learns_session hkept (fun log' new s hlater hstarted hsub => learns_ret ?_)
    fun log' e _ => learns_ret (gives_finish 500)
  exact gives_session (.nothing .empty) (hkept log' hlater) hstarted hsub

/-- `change_password`, sweeps included. -/
theorem learns_change_password {cookie : String} {id : Identity} {req : ChangePasswordRequest}
    {params : SessionParams} (hauth : Authenticated log cookie id) :
    Learns (mandates jwt_svc wa) (.route (.change_password cookie req params))
      (handlers.change_password jwt_svc.crates id req params) log
      (MayGive jwt_svc wa (.route (.change_password cookie req params))) := by
  refine learns_run (learnsE_change_password hauth (fun log₁ u hlater hfound hverify hdone => ?_)
    fun log' e _ => learns_ret (gives_auth_error e))
  have hrotates : RotatesFor jwt_svc (.route (.change_password cookie req params) :
      ServiceCall Reg Cred) log₁ id.sub :=
    .change_password (hlater.subset hauth) hfound hverify hdone
  refine learns_bind (learns_revoke_all_for_user hrotates fun log₂ _ hlater₂ => ?_)
  refine learns_run (learnsE_retrieve (fun r => ?_) fun log' e _ => learns_ret (gives_auth_error e))
  have hr := hlater₂.trans (List.suffix_cons
    (⟨.retrieve id.sub, Except.ok r⟩ : (o : Op) × o.Reply) log₂)
  have hkept : ∀ log', ⟨.retrieve id.sub, Except.ok r⟩ :: log₂ <:+ log' →
      Vouched jwt_svc wa (.route (.change_password cookie req params)) log' r params :=
    fun log' hl => .change_password ((hlater.trans (hr.trans hl)).subset hauth)
      (hfound.later (hr.trans hl)) hverify ((hr.trans hl).subset hdone)
      (hl.subset List.mem_cons_self)
  refine learns_session hkept (fun log₃ new s hl₃ hstarted hsub => ?_)
    fun log' e _ => learns_ret (gives_auth_error e)
  refine learns_bind (learns_revoke_all_user_tokens (hrotates.later (hr.trans hl₃))
    fun log₄ _ hl₄ => learns_ret ?_)
  obtain ⟨past, hpast⟩ := hstarted
  exact gives_session (.nothing (.success (by decide))) (hkept log₄ (hl₃.trans hl₄))
    ⟨past, hpast.trans hl₄⟩ hsub

/-- `confirm_password_reset`, sweeps included. -/
theorem learns_confirm_password_reset {payload : PasswordResetConfirmRequest} :
    Learns (mandates jwt_svc wa) (.route (.confirm_password_reset payload))
      (handlers.confirm_password_reset jwt_svc.crates payload) log
      (MayGive jwt_svc wa (.route (.confirm_password_reset payload))) := by
  refine learns_run (learnsE_confirm_password_reset (fun log₁ now p hspent hdone => ?_)
    fun log' e => learns_ret (gives_auth_error e))
  have hrotates : RotatesFor jwt_svc (.route (.confirm_password_reset payload) :
      ServiceCall Reg Cred) log₁ p.user_id := .confirm_password_reset hspent hdone
  refine learns_bind (learns_revoke_all_for_user hrotates fun log₂ _ hlater₂ => ?_)
  exact learns_bind (learns_revoke_all_user_tokens (hrotates.later hlater₂) fun _ _ _ =>
    learns_ret (gives_finish 200))

/-- `delete_session` looks at the row's owner before it deletes it. -/
theorem learns_delete_session {cookie : String} {id : Uuid} {who : Identity}
    (hauth : Authenticated log cookie who) :
    Learns (mandates jwt_svc wa) (.route (.delete_session cookie id))
      (handlers.delete_session id who) log
      (MayGive jwt_svc wa (.route (.delete_session cookie id))) := by
  refine learns_run (learnsE_retrieve_session (fun z => ?_) fun log' e _ => ?_)
  · have hlater := List.suffix_cons (⟨.retrieve_session id, Except.ok z⟩ : (o : Op) × o.Reply) log
    dsimp only
    by_cases hsub : z.sub ≠ who.sub
    · rw [if_pos hsub]
      exact learns_ret (gives_finish 403)
    rw [if_neg hsub]
    refine learns_run (learnsE_session_delete (fun log' s hl' hs => ?_)
      (fun _ _ => learns_ret (gives_finish 200)) fun log' e _ => ?_)
    · exact .delete_session ((hlater.trans hl').subset hauth) (hl'.subset List.mem_cons_self)
        (not_not.mp hsub) hs
    · cases e with
      | RowNotFound => exact learns_ret (gives_finish 200)
      | database => exact learns_ret (gives_finish 500)
  · cases e with
    | RowNotFound => exact learns_ret (gives_finish 404)
    | database => exact learns_ret (gives_finish 500)

/-- A viewset's refusal. -/
theorem gives_viewset_error (hcall : call.Viewset) {e : ApiError} (h : Reports log e) :
    MayGive jwt_svc wa call log (viewset_error jwt_svc.crates e) :=
  gives_body (.viewset hcall (.error h))

/-- The user viewset hands an update on. -/
theorem learns_update_user {cookie : String} {id : Uuid} {dto : UpdateUser} {who : Identity}
    (hauth : Authenticated log cookie who) :
    Learns (mandates jwt_svc wa) (.route (.update_user cookie id dto))
      (handlers.update_user jwt_svc.crates id dto) log
      (MayGive jwt_svc wa (.route (.update_user cookie id dto))) := by
  refine learns_bind (learns_ask rfl (fun _ => rfl)
    (fun hw => ⟨hw, fun u hu => .update_user hauth hu⟩) fun r => ?_)
  change Except ApiError UserResponse at r
  cases r with
  | ok u => exact learns_ret (gives_body (.viewset trivial (.updated List.mem_cons_self)))
  | error e => exact learns_ret (gives_viewset_error (by trivial) (.update List.mem_cons_self))

/-- What a failed challenge or confirmation answers. -/
theorem gives_translated (e : PasswdlessError) :
    MayGive jwt_svc wa call log (translate_error e) := by
  cases e with
  | DbError => exact gives_finish 500
  | BadToken | UserNotFound => exact gives_nothing (.inl rfl) (.text (by decide))

/-- Whether or not a challenge went out, the answer is a fixed text. -/
theorem learns_challenge_response {p : Service PasswdlessError Unit}
    (h : LearnsE (mandates jwt_svc wa) call p log (fun _ _ => True) fun _ _ => True) :
    Learns (mandates jwt_svc wa) call (do
      match ← p.run with
      | .ok () => return .finish 201
      | .error e => return translate_error e) log (MayGive jwt_svc wa call) := by
  exact learns_run (learnsE_mono h (fun _ _ _ _ => learns_ret (gives_finish 201))
    fun log' e _ _ => learns_ret (gives_translated e))

/-- The passkey handlers' refusals are fixed texts. -/
theorem gives_bad_request {msg : String} (h : msg ∈ passkey_errors) :
    MayGive jwt_svc wa call log (ErrorResponse.bad_request msg) :=
  gives_nothing (.inl rfl) (.passkey_error h)

/-- A failure inside says nothing. -/
theorem gives_internal : MayGive jwt_svc wa call log ErrorResponse.internal :=
  gives_nothing (.inl rfl) (.passkey_error (by decide))

/-- A registration ceremony is started for the identity, its passkeys excluded. -/
theorem learns_passkey_register_start {cookie : String} {id : Identity}
    (hauth : Authenticated log cookie id) :
    Learns (mandates jwt_svc wa) (.route (.passkey_register_start cookie))
      (passkey_register.start jwt_svc.crates wa id) log
      (MayGive jwt_svc wa (.route (.passkey_register_start cookie))) := by
  refine learns_run (learnsE_retrieve (fun r => ?_) fun _ _ _ => learns_ret gives_internal)
  have hr := List.suffix_cons (⟨.retrieve id.sub, Except.ok r⟩ : (o : Op) × o.Reply) log
  refine learns_run (learnsE_credentials_for_user (fun log₁ l keys hlater hlisted hread => ?_)
    fun _ _ _ => learns_ret gives_internal)
  refine learns_bind (learns_ask rfl (fun _ => rfl) (fun _ => .other trivial) fun drawn => ?_)
  change Except String String at drawn
  cases drawn with
  | error e => exact learns_ret (gives_nothing (.inl rfl) (.not_drawn List.mem_cons_self))
  | ok challenge =>
      have hdrawn := List.suffix_cons (⟨.challenge, Except.ok challenge⟩ : (o : Op) × o.Reply) log₁
      refine learns_bind (learns_store_reg_state (fun log' timed hl hstate => ?_)
        fun log' timed r' hl hstate hput => learns_ret ?_)
      · exact MayPut.reg_set ((hr.trans (hlater.trans (hdrawn.trans hl))).subset hauth)
          ((hlater.trans (hdrawn.trans hl)).subset List.mem_cons_self)
          (hlisted.later (hdrawn.trans hl)) hread (hl.subset List.mem_cons_self) hstate
      · rw [← hstate]
        exact gives_body (.registration_options hput)

/-- The credential is stored if the ceremony of the identity accepts it. -/
theorem learns_passkey_register_finish {cookie : String} {label : Option String} {credential : Reg}
    {id : Identity} (hauth : Authenticated log cookie id) :
    Learns (mandates jwt_svc wa) (.route (.passkey_register_finish cookie label credential))
      (passkey_register.finish jwt_svc.crates wa id label credential) log
      (MayGive jwt_svc wa (.route (.passkey_register_finish cookie label credential))) := by
  refine learns_bind (learns_take_reg_state (fun log₁ timed hlater hgot => ?_)
    fun _ _ => learns_ret (gives_bad_request (by decide)))
  dsimp only
  cases hfinish : wa.finish_passkey_registration credential timed.state with
  | error e => exact learns_ret (gives_nothing (.inl rfl) (.registration_failed hfinish))
  | ok passkey =>
      exact learns_run (learnsE_insert_credential (hlater.subset hauth) hgot hfinish
        (fun _ => learns_ret (gives_nothing (.inl rfl) .registered))
        fun _ _ => learns_ret gives_internal)

/-- The list is the identity's own. -/
theorem learns_passkey_list {cookie : String} {id : Identity} (hauth : Authenticated log cookie id) :
    Learns (mandates jwt_svc wa) (.route (.passkey_list cookie)) (passkey_register.list id) log
      (MayGive jwt_svc wa (.route (.passkey_list cookie))) := by
  refine learns_run (learnsE_bind (learnsE_select (fun rows => learnsE_ret (learns_ret ?_))
    fun _ _ _ => learns_ret gives_internal))
  refine gives_body (.passkeys (List.mem_cons_of_mem _ hauth)
    ⟨rows, List.mem_cons_self, rfl⟩ fun x hx => ?_)
  obtain ⟨k, hk, rfl⟩ := List.mem_map.mp hx
  exact ⟨k, List.mem_mergeSort.mp hk, rfl⟩

/-- So is what `remove` deletes. -/
theorem learns_passkey_remove {cookie : String} {row_id : Uuid} {id : Identity}
    (hauth : Authenticated log cookie id) :
    Learns (mandates jwt_svc wa) (.route (.passkey_remove cookie row_id))
      (passkey_register.remove id row_id) log
      (MayGive jwt_svc wa (.route (.passkey_remove cookie row_id))) := by
  refine learns_run (learnsE_bind (learns_change (fun log' k hl hk => ?_) (fun _ => rfl)
    (fun past rows _ _ => learnsE_ret ?_) fun _ _ _ => learns_ret gives_internal))
  · simp only [Bool.and_eq_true, beq_iff_eq] at hk
    exact MayMake.passkey_remove (hl.subset hauth) hk.1 hk.2
  · cases decide (0 < rows.length) with
    | true => exact learns_ret (gives_nothing (.inl rfl) .removed)
    | false => exact learns_ret (gives_nothing (.inl rfl) (.passkey_error (by decide)))

/-- A login ceremony is started with the passkeys of the account. -/
theorem learns_passkey_login_start {username : String} :
    Learns (mandates jwt_svc wa) (.route (.passkey_login_start username))
      (passkey_login.start wa username) log
      (MayGive jwt_svc wa (.route (.passkey_login_start username))) := by
  unfold passkey_login.start
  dsimp only
  by_cases he : (trim username).isEmpty = true
  · rw [if_pos he]
    exact learns_ret (gives_bad_request (by decide))
  rw [if_neg he]
  refine learns_run (learnsE_lookup (fun log₁ u hlater hfound => ?_)
    fun _ _ _ => learns_ret (gives_bad_request (by decide)))
  refine learns_run (learnsE_credentials_for_user (fun log₂ l keys hlater₂ hlisted hread => ?_)
    fun _ _ _ => learns_ret gives_internal)
  dsimp only
  by_cases hk : keys.isEmpty = true
  · rw [if_pos hk]
    exact learns_ret (gives_bad_request (by decide))
  rw [if_neg hk]
  refine learns_bind (learns_ask rfl (fun _ => rfl) (fun _ => .other trivial) fun drawn => ?_)
  change Except String String at drawn
  cases drawn with
  | error e => exact learns_ret (gives_nothing (.inl rfl) (.not_drawn List.mem_cons_self))
  | ok challenge =>
      have hdrawn := List.suffix_cons (⟨.challenge, Except.ok challenge⟩ : (o : Op) × o.Reply) log₂
      refine learns_bind (learns_store_auth_state (fun log' timed hl hstate => ?_)
        fun log' timed r' hl hstate hput => learns_ret ?_)
      · exact MayPut.auth_set (hfound.later (hlater₂.trans (hdrawn.trans hl)))
          (hlisted.later (hdrawn.trans hl)) hread (hl.subset List.mem_cons_self) hstate
      · rw [← hstate]
        exact gives_body (.login_options hput)

/-- A login is finished by a ceremony that accepts the credential. -/
theorem learns_passkey_login_finish {username : String} {credential : Cred}
    {params : SessionParams} :
    Learns (mandates jwt_svc wa) (.route (.passkey_login_finish username credential params))
      (passkey_login.finish jwt_svc.crates wa username credential params) log
      (MayGive jwt_svc wa (.route (.passkey_login_finish username credential params))) := by
  refine learns_run (learnsE_lookup (fun log₁ u hlater hfound => ?_)
    fun _ _ _ => learns_ret (gives_bad_request (by decide)))
  refine learns_bind (learns_take_auth_state (fun log₂ timed hlater₂ hgot => ?_)
    fun _ _ => learns_ret (gives_bad_request (by decide)))
  dsimp only
  cases hfinish : wa.finish_passkey_authentication credential timed.state with
  | error e => exact learns_ret (gives_nothing (.inl rfl) (.login_failed hfinish))
  | ok result =>
      have hvouched : Vouched jwt_svc wa
          (.route (.passkey_login_finish username credential params)) log₂ (UserResponse.of u)
          params := .passkey_login (hfound.later hlater₂) hgot hfinish
      exact learns_bind (learns_refresh_counter hvouched hgot hfinish fun log₃ hlater₃ =>
        learns_start_session fun log' hl => hvouched.later (hlater₃.trans hl))

/-! ### Routes -/

/-- A route without the session middleware. -/
theorem learns_open {p : Handler HttpResponse} (hcall : call.cookie = none)
    (h : Learns (mandates jwt_svc wa) call p log (MayGive jwt_svc wa call)) :
    Learns (mandates jwt_svc wa) call p log (MayAnswer jwt_svc wa call) := by
  refine learns_mono h fun log' resp _ hgive => ⟨hgive, fun cookie hc => ?_⟩
  rw [hcall] at hc
  cases hc

/-- A route behind the session middleware. -/
theorem learns_protected {cookie : String} {handler : Identity → Handler HttpResponse}
    (hcall : call.cookie = some cookie)
    (h : ∀ log id, Authenticated log cookie id →
      Learns (mandates jwt_svc wa) call (handler id) log (MayGive jwt_svc wa call)) :
    Learns (mandates jwt_svc wa) call (session_middleware cookie handler) log
      (MayAnswer jwt_svc wa call) := by
  refine learns_bind (learns_ask rfl (fun _ => rfl) (fun _ => .other trivial) fun got => ?_)
  change Option Identity at got
  cases got with
  | none => exact learns_ret ⟨gives_finish 401, fun _ _ hs => absurd rfl hs⟩
  | some id =>
      refine learns_mono (h _ id List.mem_cons_self) fun log' resp hlater hgive =>
        ⟨hgive, fun cookie' hc _ => ⟨id, ?_⟩⟩
      obtain rfl := Option.some.inj (hcall.symm.trans hc)
      exact hlater.subset List.mem_cons_self

/-- The registration behind its route. -/
theorem learns_register {req : RegisterRequest} :
    Learns (mandates jwt_svc wa) (.route (.register req)) (handlers.register jwt_svc.crates req) log
      (MayGive jwt_svc wa (.route (.register req))) := by
  unfold handlers.register
  by_cases hv : req.validate jwt_svc.crates = true
  · simp only [hv, Bool.not_true, Bool.false_eq_true, if_false]
    exact learns_run (learnsE_register hv (fun _ => learns_ret (gives_success 201 (by decide)))
      fun _ e => learns_ret (gives_auth_error e))
  · simp only [hv, Bool.not_false, if_true]
    exact learns_ret (gives_nothing (.inl rfl) (.text (by decide)))

/-- The login by email. -/
theorem learns_login {req : LoginRequest} {params : SessionParams} :
    Learns (mandates jwt_svc wa) (.route (.login req params))
      (handlers.login jwt_svc.crates req params) log
      (MayGive jwt_svc wa (.route (.login req params))) :=
  learns_password_login req
    (fun _ _ _ hfound hverify => learns_start_session fun _ hl => .login (hfound.later hl) hverify)
    fun _ e _ => learns_ret (gives_auth_error e)

/-- The login by username. -/
theorem learns_login_by_name {req : LoginRequest} {params : SessionParams} :
    Learns (mandates jwt_svc wa) (.route (.username_login req params))
      (handlers.username_login jwt_svc.crates req params) log
      (MayGive jwt_svc wa (.route (.username_login req params))) :=
  learns_username_login req
    (fun _ _ _ hfound hverify => learns_start_session fun _ hl =>
      .username_login (hfound.later hl) hverify)
    fun _ e _ => learns_ret (gives_auth_error e)

/-- Whether the address is known or not, the answer is one text. -/
theorem learns_request_password_reset {req : PasswordResetRequest} :
    Learns (mandates jwt_svc wa) (.route (.request_password_reset req))
      (handlers.request_password_reset jwt_svc.crates req) log
      (MayGive jwt_svc wa (.route (.request_password_reset req))) := by
  refine learns_bind (learns_mono (learnsE_request_password_reset (Q := fun _ _ => True)
    (E := fun _ _ => True) (fun _ => trivial) fun _ _ => trivial) fun log' r _ _ => ?_)
  exact learns_ret (gives_success 200 (by decide))

/-- The logout of a refresh token. -/
theorem learns_jwt_logout {cmd : LogoutCmd} :
    Learns (mandates jwt_svc wa) (.route (.jwt_logout cmd)) (handlers.jwt_logout jwt_svc cmd) log
      (MayGive jwt_svc wa (.route (.jwt_logout cmd))) :=
  learns_run (learnsE_jwt_logout (fun _ => learns_ret (gives_success 200 (by decide)))
    fun _ _ => learns_ret (gives_finish 500))

/-- The exchange of a refresh token. -/
theorem learns_refresh {cmd : RefreshCmd} :
    Learns (mandates jwt_svc wa) (.route (.refresh cmd)) (handlers.refresh jwt_svc cmd) log
      (MayGive jwt_svc wa (.route (.refresh cmd))) :=
  learns_run (learnsE_refresh
    (fun _ _ _ _ hlive hsigned hrecorded => learns_ret
      (gives_body (.refresh hlive.1 hlive.2.1 hlive.2.2 hsigned hrecorded)))
    fun _ _ => learns_ret (gives_finish 500))

/-- The first pair of tokens in a session. -/
theorem learns_jwt {cookie : String} {id : Identity} (hauth : Authenticated log cookie id) :
    Learns (mandates jwt_svc wa) (.route (.jwt cookie)) (handlers.jwt jwt_svc id) log
      (MayGive jwt_svc wa (.route (.jwt cookie))) :=
  learns_run (learnsE_issue_token_pair hauth
    (fun _ _ hlater hsigned hrecorded => learns_ret
      (gives_body (.jwt (hlater.subset hauth) hsigned hrecorded)))
    fun _ _ _ => learns_ret (gives_finish 500))

/-- The logout of a session. -/
theorem learns_logout {cookie : String} {id : Identity} (hauth : Authenticated log cookie id) :
    Learns (mandates jwt_svc wa) (.route (.logout cookie))
      (handlers.logout jwt_svc.crates (some cookie)) log
      (MayGive jwt_svc wa (.route (.logout cookie))) :=
  learns_run (learnsE_logout (fun _ _ hlater hs => .logout (hlater.subset hauth) hs)
    (fun _ _ => learns_ret (gives_nothing (.inr rfl) (.success (by decide))))
    fun _ e _ => learns_ret (gives_auth_error e))

/-- The list shows the sessions the repository has for the identity. -/
theorem learns_get_sessions {cookie : String} {id : Identity} (hauth : Authenticated log cookie id) :
    Learns (mandates jwt_svc wa) (.route (.get_sessions cookie)) (handlers.get_sessions id) log
      (MayGive jwt_svc wa (.route (.get_sessions cookie))) := by
  refine learns_bind (learns_ask rfl (fun _ => rfl) (fun _ => .other trivial) fun r => ?_)
  cases r with
  | ok l =>
      exact learns_ret (gives_body (.sessions (List.mem_cons_of_mem _ hauth) List.mem_cons_self))
  | error e => exact learns_ret (gives_finish 500)

/-- A challenge by email. -/
theorem learns_challenge1 {email : String} :
    Learns (mandates jwt_svc wa) (.route (.challenge1 email)) (handlers.challenge1 email) log
      (MayGive jwt_svc wa (.route (.challenge1 email))) :=
  learns_challenge_response
    (learnsE_challenge (fun _ _ hu => .challenge1 hu) (fun _ => trivial) fun _ _ => trivial)

/-- A challenge by username. -/
theorem learns_challenge2 {username : String} :
    Learns (mandates jwt_svc wa) (.route (.challenge2 username)) (handlers.challenge2 username) log
      (MayGive jwt_svc wa (.route (.challenge2 username))) :=
  learns_challenge_response
    (learnsE_challenge (fun _ _ hu => .challenge2 hu) (fun _ => trivial) fun _ _ => trivial)

/-- The login by link. -/
theorem learns_confirm {link : String} {params : SessionParams} :
    Learns (mandates jwt_svc wa) (.route (.confirm link params))
      (handlers.confirm jwt_svc.crates link params) log
      (MayGive jwt_svc wa (.route (.confirm link params))) :=
  learns_run (learnsE_confirm_link
    (fun _ _ htaken => learns_start_confirmed_session
      (fun _ _ hl hr => .confirm (hl.subset htaken) hr) fun _ hl => .confirm (hl.subset htaken))
    fun _ e => learns_ret (gives_translated e))

/-- The login by code. -/
theorem learns_confirm_token {token : Nat} {nonce : String} {params : SessionParams} :
    Learns (mandates jwt_svc wa) (.route (.confirm_token token nonce params))
      (handlers.confirm_token jwt_svc.crates token nonce params) log
      (MayGive jwt_svc wa (.route (.confirm_token token nonce params))) :=
  learns_run (learnsE_confirm_token
    (fun _ _ htaken htoken => learns_start_confirmed_session
      (fun _ _ hl hr => .confirm_token (hl.subset htaken) htoken hr)
      fun _ hl => .confirm_token (hl.subset htaken) htoken)
    fun _ e => learns_ret (gives_translated e))

/-- Every request of a client. -/
theorem learns_request (req : Request Reg Cred) :
    Learns (mandates jwt_svc wa) (.route req) (req.handler jwt_svc.crates jwt_svc wa) log
      (MayAnswer jwt_svc wa (.route req)) := by
  cases req with
  | register => exact learns_open rfl learns_register
  | login => exact learns_open rfl learns_login
  | username_login => exact learns_open rfl learns_login_by_name
  | request_password_reset => exact learns_open rfl learns_request_password_reset
  | confirm_password_reset => exact learns_open rfl learns_confirm_password_reset
  | jwt_logout => exact learns_open rfl learns_jwt_logout
  | refresh => exact learns_open rfl learns_refresh
  | jwt => exact learns_protected rfl (fun _ _ h => learns_jwt h)
  | logout => exact learns_protected rfl (fun _ _ h => learns_logout h)
  | account => exact learns_protected rfl (fun _ _ h => learns_ret (gives_body (.account h)))
  | change_password => exact learns_protected rfl (fun _ _ h => learns_change_password h)
  | get_sessions => exact learns_protected rfl (fun _ _ h => learns_get_sessions h)
  | delete_session => exact learns_protected rfl (fun _ _ h => learns_delete_session h)
  | update_user => exact learns_protected rfl (fun _ _ h => learns_update_user h)
  | challenge1 => exact learns_open rfl learns_challenge1
  | challenge2 => exact learns_open rfl learns_challenge2
  | confirm => exact learns_open rfl learns_confirm
  | confirm_token => exact learns_open rfl learns_confirm_token
  | passkey_register_start => exact learns_protected rfl (fun _ _ h => learns_passkey_register_start h)
  | passkey_register_finish =>
      exact learns_protected rfl (fun _ _ h => learns_passkey_register_finish h)
  | passkey_list => exact learns_protected rfl (fun _ _ h => learns_passkey_list h)
  | passkey_remove => exact learns_protected rfl (fun _ _ h => learns_passkey_remove h)
  | passkey_login_start => exact learns_open rfl learns_passkey_login_start
  | passkey_login_finish => exact learns_open rfl learns_passkey_login_finish

/-- The lookup of an id by username shows the id and nothing else. -/
theorem learns_username2userid {username : String} :
    Learns (mandates jwt_svc wa) (.username2userid username)
      (handlers.username2userid jwt_svc.crates username) log
      (MayGive jwt_svc wa (.username2userid username)) := by
  refine learns_bind (learns_bind (learns_ask rfl (fun _ => rfl) (permits_select _) fun r =>
    learns_ret ?_))
  cases r with
  | error e => exact learns_ret (gives_finish 404)
  | ok rows =>
      dsimp only [Relation.decode]
      cases hl : rows.filterMap users.prj with
      | nil => exact learns_ret (gives_finish 404)
      | cons u rest =>
          refine learns_ret (gives_body (.user_id ⟨rows, List.mem_cons_self, ?_⟩))
          rw [hl]
          exact List.mem_cons_self

/-- The user viewset hands a deletion on. -/
theorem learns_delete_user {cookie : String} {id : Uuid} {who : Identity}
    (hauth : Authenticated log cookie who) :
    Learns (mandates jwt_svc wa) (.delete_user cookie id) (handlers.delete_user jwt_svc.crates id)
      log (MayGive jwt_svc wa (.delete_user cookie id)) := by
  have hwide : (mandates jwt_svc wa).Wide (.delete_user cookie id) := ⟨cookie, id, rfl⟩
  refine learns_bind (learns_bind (learns_write (fun log' r hlater hr => ?_)
    (.inl hwide) (fun _ rows _ _ => learns_ret ?_) fun _ e _ => learns_ret ?_))
  · exact MayMake.delete_user (hlater.subset hauth) hr
  · dsimp only [Relation.decode]
    cases rows.filterMap users.prj with
    | nil => exact learns_ret (gives_viewset_error (by trivial) .missing)
    | cons u rest => exact learns_ret (gives_finish _)
  · exact learns_ret (gives_viewset_error (by trivial) (.database _))

/-- What a session is changed to is handed on. -/
theorem learns_update_session {cookie : String} {id : Uuid} {change : SessionChange}
    {who : Identity} (hauth : Authenticated log cookie who) :
    Learns (mandates jwt_svc wa) (.update_session cookie id change)
      (viewset.update_session jwt_svc.crates id change) log
      (MayGive jwt_svc wa (.update_session cookie id change)) := by
  refine learns_bind (learns_bind (learns_write (fun log' r hlater hr => ?_)
    (.inr ⟨0, ranked_sel (fun _ => rfl) _⟩) (fun past rows _ hrows => learns_ret ?_)
    fun _ _ _ => learns_ret (learns_ret (gives_viewset_error (by trivial) (.database _)))))
  · obtain ⟨s, rfl, hs⟩ := sessions.sel_iff.mp hr
    rw [sessions.set_inj]
    exact MayMake.viewset_update_session (hlater.subset hauth) (by simpa using hs)
  · dsimp only [Relation.decode]
    cases hl : rows.filterMap sessions.prj with
    | nil => exact learns_ret (gives_viewset_error (by trivial) .missing)
    | cons s rest =>
        have hmem : s ∈ rows.filterMap sessions.prj := by rw [hl]; exact List.mem_cons_self
        obtain ⟨row, hrow, hprj⟩ := List.mem_filterMap.mp hmem
        have hvisited := hrows row hrow
        rw [sessions.inj_of_prj hprj] at hvisited
        exact learns_ret (gives_body (.viewset trivial
          (.changed (hvisited.mono (List.suffix_cons _ _)))))

/-- So does the session viewset. -/
theorem learns_viewset_delete_session {cookie : String} {id : Uuid} {who : Identity}
    (hauth : Authenticated log cookie who) :
    Learns (mandates jwt_svc wa) (.delete_session cookie id)
      (viewset.delete_session jwt_svc.crates id) log
      (MayGive jwt_svc wa (.delete_session cookie id)) := by
  refine learns_run (learnsE_session_delete (fun log' s hlater hs => ?_)
    (fun _ _ => learns_ret (gives_finish _)) fun log' e _ => ?_)
  · exact .viewset_delete_session (hlater.subset hauth) hs
  · cases e with
    | RowNotFound => exact learns_ret (gives_viewset_error (by trivial) .missing)
    | database => exact learns_ret (gives_viewset_error (by trivial) (.database _))

/-- What a viewset reads is handed on. -/
theorem learns_read {cookie : String} {what : ViewsetRead} :
    Learns (mandates jwt_svc wa) (.read cookie what) (viewset.read jwt_svc.crates what) log
      (MayGive jwt_svc wa (.read cookie what)) := by
  cases what with
  | users =>
      refine learns_bind (learns_ask rfl (fun _ => rfl) (fun _ => .other trivial) fun r => ?_)
      cases r with
      | ok l => exact learns_ret (gives_body (.viewset trivial (.users List.mem_cons_self)))
      | error e => exact learns_ret (gives_viewset_error (by trivial) (.users List.mem_cons_self))
  | user id =>
      refine learns_bind (learns_ask rfl (fun _ => rfl) (fun _ => .other trivial) fun r => ?_)
      cases r with
      | ok u => exact learns_ret (gives_body (.viewset trivial (.user List.mem_cons_self)))
      | error e => exact learns_ret (gives_viewset_error (by trivial) (.user List.mem_cons_self))
  | sessions =>
      refine learns_bind (learns_ask rfl (fun _ => rfl) (fun _ => .other trivial) fun r => ?_)
      cases r with
      | ok l => exact learns_ret (gives_body (.viewset trivial (.page List.mem_cons_self)))
      | error e => exact learns_ret (gives_viewset_error (by trivial) (.sessions List.mem_cons_self))
  | session id =>
      refine learns_run (learnsE_retrieve_session (fun s => ?_) fun log' e _ => ?_)
      · exact learns_ret (gives_body (.viewset trivial (.session List.mem_cons_self)))
      · cases e with
        | RowNotFound => exact learns_ret (gives_viewset_error (by trivial) .missing)
        | database => exact learns_ret (gives_viewset_error (by trivial) (.database _))
  | new_user | new_session => exact learns_ret (gives_viewset_error (by trivial) (.not_created _))

end Functions

/-- **Every call does only what it is entitled to.** -/
theorem calls_entitled {Reg Cred : Type} (jwt_svc : JwtService) (wa : Webauthn Reg Cred)
    (call : ServiceCall Reg Cred) :
    (mandates jwt_svc wa).policy.protocol.Follows call ((whole_service jwt_svc wa).code call) := by
  have hall : Learns (mandates jwt_svc wa) call (call.handler jwt_svc wa) []
      (MayAnswer jwt_svc wa call) := by
    cases call with
    | route req => exact learns_request req
    | username2userid username => exact learns_open rfl learns_username2userid
    | delete_user cookie id => exact learns_protected rfl (fun _ _ h => learns_delete_user h)
    | update_session cookie id change =>
        exact learns_protected rfl (fun _ _ h => learns_update_session h)
    | delete_session cookie id =>
        exact learns_protected rfl (fun _ _ h => learns_viewset_delete_session h)
    | read cookie what => exact learns_protected rfl (fun _ _ _ => learns_read)
  exact goes_mono (hall.goes rfl) fun log' resp h => h.2

end Authnz
