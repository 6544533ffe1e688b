/-
Every function of the service does only what its call is entitled to.

The functions are walked one by one, from the operations of one step up to the refresh
tokens; the handlers and the routes follow in `EntitledRoutes`.  What a call has had
proof of is read off the replies on record, and stays on record.
-/
import Authnz.Proofs.Mandates

namespace Authnz

open Basis Rights

section Evidence

variable {log log' : Replies}

/-- A token once drawn stays among those drawn. -/
theorem drawn_tokens_later {raw : String} (h : raw ∈ drawn_tokens log) (hlater : log <:+ log') :
    raw ∈ drawn_tokens log' := by
  obtain ⟨a, ha, hraw⟩ := List.mem_filterMap.mp h
  exact List.mem_filterMap.mpr ⟨a, hlater.subset ha, hraw⟩

variable {Reg Cred : Type} {jwt_svc : JwtService} {wa : Webauthn Reg Cred}
  {call : ServiceCall Reg Cred}

/-- What vouches for a session goes on to do so. -/
theorem Vouched.later {r : UserResponse} {params : SessionParams}
    (h : Vouched jwt_svc wa call log r params) (hlater : log <:+ log') :
    Vouched jwt_svc wa call log' r params := by
  cases h with
  | login hfound hverify => exact .login (hfound.later hlater) hverify
  | username_login hfound hverify => exact .username_login (hfound.later hlater) hverify
  | confirm htaken hr => exact .confirm (hlater.subset htaken) (hlater.subset hr)
  | confirm_token htaken htoken hr =>
      exact .confirm_token (hlater.subset htaken) htoken (hlater.subset hr)
  | passkey_login hfound hgot hfinish =>
      exact .passkey_login (hfound.later hlater) (hlater.subset hgot) hfinish
  | change_password hauth hfound hverify hdone hr =>
      exact .change_password (hlater.subset hauth) (hfound.later hlater) hverify
        (hlater.subset hdone) (hlater.subset hr)

/-- A call that may rotate a password keeps its warrant. -/
theorem RotatesFor.later {u : Uuid} (h : RotatesFor jwt_svc call log u) (hlater : log <:+ log') :
    RotatesFor jwt_svc call log' u := by
  cases h with
  | change_password hauth hfound hverify hdone =>
      exact .change_password (hlater.subset hauth) (hfound.later hlater) hverify
        (hlater.subset hdone)
  | confirm_password_reset hspent hdone =>
      exact .confirm_password_reset (hspent.mono hlater) (hlater.subset hdone)

/-- So does one that has confirmed a challenge. -/
theorem Confirms.later {u : Uuid} (h : Confirms call log u) (hlater : log <:+ log') :
    Confirms call log' u := by
  cases h with
  | confirm htaken => exact .confirm (hlater.subset htaken)
  | confirm_token htaken htoken => exact .confirm_token (hlater.subset htaken) htoken

/-- And one that has found the account to challenge. -/
theorem Challenges.later {u : User} (h : Challenges call log u) (hlater : log <:+ log') :
    Challenges call log' u := by
  cases h with
  | challenge1 hfound => exact .challenge1 (hfound.later hlater)
  | challenge2 hfound => exact .challenge2 (hfound.later hlater)

/-- A response without a session cookie and without data. -/
theorem gives_nothing {resp : HttpResponse}
    (hcookie : resp.cookie = none ∨ resp.cookie = some removal_cookie)
    (hbody : SaysNothing wa log resp.body) : MayGive jwt_svc wa call log resp := by
  refine ⟨fun k hk => ?_, .nothing hbody⟩
  rcases hcookie with hn | hr
  · rw [hn] at hk
    cases hk
  · exact .inl (Option.some.inj (hk.symm.trans hr))

/-- A service error says its own text, or nothing at all. -/
theorem gives_auth_error (e : AuthError) :
    MayGive jwt_svc wa call log (auth_error_to_response e) := by
  cases e with
  | Database | Bcrypt | Cache => exact gives_nothing (.inl rfl) .empty
  | _ => exact gives_nothing (.inl rfl) (.refusal _)

/-- A bare status says nothing. -/
theorem gives_finish (status : Nat) : MayGive jwt_svc wa call log (.finish status) :=
  gives_nothing (.inl rfl) .empty

/-- The service's own texts say nothing about anybody. -/
theorem gives_success (status : Nat) {message : String} (h : message ∈ success_messages) :
    MayGive jwt_svc wa call log (.json status (ApiResponse.success .unit message)) :=
  gives_nothing (.inl rfl) (.success h)

end Evidence

section Functions

variable {Reg Cred : Type} {jwt_svc : JwtService} {wa : Webauthn Reg Cred}
  {call : ServiceCall Reg Cred} {log : Replies} {β ε : Type}

/-! ### Operations of one step -/

/-- A call that reads the clock knows the time it was told. -/
theorem learns_now {Q : Replies → Time → Prop} (hQ : ∀ now, Q (⟨.now, now⟩ :: log) now) :
    Learns (mandates jwt_svc wa) call utc_now log Q :=
  learns_ask rfl (fun _ => rfl) (fun _ => .other trivial) hQ

theorem learns_hash {password : String} {Q : Replies → Except Failed String → Prop}
    (hQ : ∀ r, Q (⟨.bcrypt_hash password, r⟩ :: log) r) :
    Learns (mandates jwt_svc wa) call (ask (.bcrypt_hash password)) log Q :=
  learns_ask rfl (fun _ => rfl) (fun _ => .other trivial) hQ

/-- The drawn bytes are on record as the token they make. -/
theorem learns_raw_token {Q : Replies → String → Prop}
    (hQ : ∀ bytes, Q (⟨.fill 32, bytes⟩ :: log) (base64url bytes)) :
    Learns (mandates jwt_svc wa) call generate_raw_token log Q :=
  learns_bind (learns_ask rfl (fun _ => rfl) (fun _ => .other trivial) fun bytes =>
    learns_ret (hQ bytes))

/-- What the user repository hands out is on record. -/
theorem learnsE_retrieve {id : Uuid} {Q : Replies → UserResponse → Prop}
    {E : Replies → AuthError → Prop}
    (hQ : ∀ r, Q (⟨.retrieve id, Except.ok r⟩ :: log) r) (hE : ∀ log' e, log <:+ log' → E log' e) :
    LearnsE (mandates jwt_svc wa) call (UserService.get_user_by_id id) log Q E := by
  refine learnsE_attempt (learns_ask rfl (fun _ => rfl) (fun _ => .other trivial) fun r => ?_)
  cases r with
  | ok r => exact hQ r
  | error e => exact hE _ _ (List.suffix_cons _ _)

/-! ### Lookups -/

/-- The account a lookup returns is one its query has found. -/
theorem learnsE_lookup {q : User → Bool} {Q : Replies → User → Prop} {E : Replies → AuthError → Prop}
    (hQ : ∀ log' u, log <:+ log' → Found users q log' u → Q log' u)
    (hE : ∀ log' e, log <:+ log' → E log' e) :
    LearnsE (mandates jwt_svc wa) call (lookup q) log Q E := by
  refine learnsE_bind (learnsE_select (fun rows => ?_) hE)
  have hlater : log <:+ ⟨.sql (.select (users.sel q)), Except.ok rows⟩ :: log :=
    List.suffix_cons _ _
  have hfound : ∀ u ∈ rows.filterMap users.prj,
      Found users q (⟨.sql (.select (users.sel q)), Except.ok rows⟩ :: log) u :=
    fun u hu => ⟨rows, List.mem_cons_self, hu⟩
  cases hl : rows.filterMap users.prj with
  | nil => exact learnsE_throw (hE _ _ hlater)
  | cons u rest => exact learnsE_ret (hQ _ _ hlater (hfound u (by rw [hl]; exact List.mem_cons_self)))

/-- The hash a change verifies against is that of the account's row. -/
theorem learnsE_password_hash_for {id : Uuid} {Q : Replies → String → Prop}
    {E : Replies → AuthError → Prop}
    (hQ : ∀ log' u, log <:+ log' → Found users (fun u => u.id == id) log' u → Q log' u.password_hash)
    (hE : ∀ log' e, log <:+ log' → E log' e) :
    LearnsE (mandates jwt_svc wa) call (UserService.password_hash_for id) log Q E := by
  refine learnsE_bind (learnsE_select (fun rows => ?_) hE)
  have hlater : log <:+ ⟨.sql (.select (users.sel fun u => u.id == id)), Except.ok rows⟩ :: log :=
    List.suffix_cons _ _
  cases hl : rows.filterMap users.prj with
  | nil => exact learnsE_throw (hE _ _ hlater)
  | cons u rest =>
      refine learnsE_ret (hQ _ u hlater ⟨rows, List.mem_cons_self, ?_⟩)
      rw [hl]
      exact List.mem_cons_self

/-! ### Sessions -/

/-- The listing of a user's sessions. -/
theorem learnsE_list {u : Uuid} {err : ApiError → ε} {Q : Replies → List Session → Prop}
    {E : Replies → ε → Prop}
    (hQ : ∀ l, Q (⟨.list_sessions (some u), Except.ok l⟩ :: log) l)
    (hE : ∀ log' e, log <:+ log' → E log' e) :
    LearnsE (mandates jwt_svc wa) call (attempt err (SessionRepo.list u)) log Q E := by
  refine learnsE_attempt (learns_ask rfl (fun _ => rfl) (fun _ => .other trivial) fun r => ?_)
  cases r with
  | ok l => exact hQ l
  | error e => exact hE _ _ (List.suffix_cons _ _)

/-- So is the session the repository hands out. -/
theorem learnsE_retrieve_session {id : Uuid} {Q : Replies → Session → Prop}
    {E : Replies → SessionRepo.Error → Prop}
    (hQ : ∀ s, Q (⟨.retrieve_session id, Except.ok s⟩ :: log) s)
    (hE : ∀ log' e, log <:+ log' → E log' e) :
    LearnsE (mandates jwt_svc wa) call (SessionRepo.retrieve id) log Q E := by
  refine learns_ask rfl (fun _ => rfl) (fun _ => .other trivial) fun r => ?_
  cases r with
  | ok s => exact hQ s
  | error e => exact hE _ _ (List.suffix_cons _ _)

/-- A session for an account the call has had proof of. -/
theorem learns_session {r : UserResponse} {params : SessionParams}
    {g : Except AuthError Uuid → Handler β} {Q : Replies → β → Prop}
    (hvouched : ∀ log', log <:+ log' → Vouched jwt_svc wa call log' r params)
    (hok : ∀ log' new s, log <:+ log' → Started log' new s → new.sub = r.id →
      Learns (mandates jwt_svc wa) call (g (.ok s.id)) log' Q)
    (herror : ∀ log' e, log <:+ log' → Learns (mandates jwt_svc wa) call (g (.error e)) log' Q) :
    Learns (mandates jwt_svc wa) call (do
        let user ← SessionUser.new r
        g (← (SessionService.issue_session user params).run)) log Q := by
  refine learns_bind (learns_bind (learns_now fun now => learns_ret ?_))
  refine learns_run (learnsE_bind (learnsE_lift (learns_now fun now' => ?_)))
  have hlater : log <:+ ⟨.now, now'⟩ :: ⟨.now, now⟩ :: log :=
    (List.suffix_cons _ _).trans (List.suffix_cons _ _)
  refine learnsE_bind (learns_insert (fun n => ?_) (fun s => learnsE_ret ?_) fun log' e hl =>
    herror _ _ (hlater.trans hl))
  · exact MayAdd.session (hvouched _ hlater) List.mem_cons_self
  · exact hok _ _ s (hlater.trans ((List.suffix_cons _ _).trans (List.suffix_cons _ _)))
      ⟨_, List.suffix_refl _⟩ rfl

/-- Deleting one session, which the caller must be entitled to. -/
theorem learnsE_session_delete {id : Uuid} {Q : Replies → Unit → Prop}
    {E : Replies → SessionRepo.Error → Prop}
    (hmake : ∀ log' (s : Session), log <:+ log' → s.id = id →
      MayMake jwt_svc wa call log' (.session s) none)
    (hQ : ∀ log', log <:+ log' → Q log' ()) (hE : ∀ log' e, log <:+ log' → E log' e) :
    LearnsE (mandates jwt_svc wa) call (SessionRepo.delete id) log Q E := by
  refine learnsE_bind (learns_change (fun log' s hlater hs => ?_) (fun _ => rfl)
    (fun past l hlater _ => ?_) hE)
  · exact hmake log' s hlater (by simpa using hs)
  · have hdone := hlater.trans (List.suffix_cons ⟨.sql .commit, Except.ok ()⟩ past)
    cases l with
    | nil => exact learnsE_throw (hE _ _ hdone)
    | cons s rest => exact learnsE_ret (hQ _ hdone)

/-- A logout deletes the session its cookie names. -/
theorem learnsE_logout {session_id : String} {Q : Replies → Unit → Prop}
    {E : Replies → AuthError → Prop}
    (hmake : ∀ log' (s : Session), log <:+ log' →
      jwt_svc.crates.uuid_parse session_id = some s.id →
        MayMake jwt_svc wa call log' (.session s) none)
    (hQ : ∀ log', log <:+ log' → Q log' ()) (hE : ∀ log' e, log <:+ log' → E log' e) :
    LearnsE (mandates jwt_svc wa) call (SessionService.logout jwt_svc.crates session_id) log Q E := by
  unfold SessionService.logout
  cases hid : jwt_svc.crates.uuid_parse session_id with
  | none => exact learnsE_throw (hE _ _ (List.suffix_refl _))
  | some id =>
      refine learns_run (learnsE_session_delete (fun log' s hlater hs => ?_) (fun log' hlater => ?_)
        fun log' e hlater => ?_)
      · exact hmake log' s hlater (by rw [hid, hs])
      · exact learns_ret (hQ _ hlater)
      · cases e with
        | RowNotFound => exact learns_ret (hQ _ hlater)
        | database => exact learns_ret (hE _ _ hlater)

/-- One deletion after the other. -/
theorem learns_delete_each {l : List Session} :
    ∀ {log : Replies} {Q : Replies → Unit → Prop},
      (∀ log' (s z : Session), log <:+ log' → z ∈ l → s.id = z.id →
        MayMake jwt_svc wa call log' (.session s) none) →
      (∀ log', log <:+ log' → Q log' ()) →
      Learns (mandates jwt_svc wa) call (SessionService.delete_each l) log Q := by
  induction l with
  | nil => exact fun _ hQ => learns_ret (hQ _ (List.suffix_refl _))
  | cons z rest ih =>
      intro log Q hmake hQ
      have hrest : ∀ log', log <:+ log' →
          Learns (mandates jwt_svc wa) call (SessionService.delete_each rest) log' Q :=
        fun log' hlater => ih
          (fun log'' s z' hlater' hz hs =>
            hmake log'' s z' (hlater.trans hlater') (List.mem_cons_of_mem _ hz) hs)
          fun log'' hlater' => hQ log'' (hlater.trans hlater')
      exact learns_run (learnsE_session_delete
        (fun log' s hlater hs => hmake log' s z hlater List.mem_cons_self hs)
        hrest fun log' _ hlater => hrest log' hlater)

/-- The sessions of a user whose password the call is rotating. -/
theorem learns_revoke_all_for_user {u : Uuid} {Q : Replies → Except AuthError Unit → Prop}
    (hcall : RotatesFor jwt_svc call log u) (hQ : ∀ log' r, log <:+ log' → Q log' r) :
    Learns (mandates jwt_svc wa) call (SessionService.revoke_all_for_user u).run log Q := by
  have hboth : LearnsE (mandates jwt_svc wa) call (SessionService.revoke_all_for_user u) log
      (fun log' r => Q log' (.ok r)) fun log' e => Q log' (.error e) := by
    refine learnsE_bind (learnsE_list (fun l => ?_) fun log' e hlater => hQ _ _ hlater)
    have hlater := List.suffix_cons (⟨.list_sessions (some u), Except.ok l⟩ : (o : Op) × o.Reply) log
    refine learnsE_lift (learns_delete_each (fun log' s z hlater' hz hs => ?_)
      fun log' hlater' => hQ _ _ (hlater.trans hlater'))
    have hnamed : Named log' u l := hlater'.subset List.mem_cons_self
    exact .revoke_session (hcall.later (hlater.trans hlater')) hnamed hz hs
  refine learns_mono hboth fun log' r _ hr => ?_
  cases r with
  | ok u => exact hr
  | error e => exact hr

/-- The refresh tokens of a user whose password the call is rotating. -/
theorem learns_revoke_all_user_tokens {u : Uuid} {Q : Replies → Except JwtError Unit → Prop}
    (hcall : RotatesFor jwt_svc call log u) (hQ : ∀ log' r, log <:+ log' → Q log' r) :
    Learns (mandates jwt_svc wa) call (JwtService.revoke_all_user_tokens u).run log Q := by
  have hboth : LearnsE (mandates jwt_svc wa) call (JwtService.revoke_all_user_tokens u) log
      (fun log' r => Q log' (.ok r)) fun log' e => Q log' (.error e) := by
    refine learnsE_bind (learns_change (fun log' t hlater ht => ?_) (fun _ => rfl)
      (fun past l hlater _ => learnsE_ret (hQ _ _ (hlater.trans (List.suffix_cons _ _))))
      fun log' e hlater => hQ _ _ hlater)
    obtain rfl : t.user_id = u := by simpa using ht
    exact MayMake.revoke_token (hcall.later hlater)
  refine learns_mono hboth fun log' r _ hr => ?_
  cases r with
  | ok u => exact hr
  | error e => exact hr

/-! ### Accounts -/

/-- A login goes on with an account whose password it has verified. -/
theorem learns_password_login (req : LoginRequest) {g : Except AuthError User → Handler β}
    {Q : Replies → β → Prop}
    (hok : ∀ log' u, log <:+ log' → Found users (fun u => u.email == req.identifier) log' u →
      jwt_svc.crates.bcrypt_verify req.password u.password_hash = some true →
      Learns (mandates jwt_svc wa) call (g (.ok u)) log' Q)
    (herror : ∀ log' e, log <:+ log' → Learns (mandates jwt_svc wa) call (g (.error e)) log' Q) :
    Learns (mandates jwt_svc wa) call (do
      g (← (UserService.password_login jwt_svc.crates ⟨req.identifier, req.password⟩).run)) log Q := by
  refine learns_run ?_
  unfold UserService.password_login
  by_cases he : (req.identifier.isEmpty || req.password.isEmpty) = true
  · rw [if_pos he]
    exact learnsE_throw (herror _ _ (List.suffix_refl _))
  rw [if_neg he]
  refine learnsE_bind (learnsE_lookup (fun log' u hlater hfound => ?_) fun log' e hlater =>
    herror _ _ hlater)
  cases hv : jwt_svc.crates.bcrypt_verify req.password u.password_hash with
  | none => exact learnsE_throw (herror _ _ hlater)
  | some ok =>
      cases ok with
      | false => exact learnsE_throw (herror _ _ hlater)
      | true => exact learnsE_ret (hok _ _ hlater hfound hv)

/-- So does a login by username. -/
theorem learns_username_login (req : LoginRequest) {g : Except AuthError User → Handler β}
    {Q : Replies → β → Prop}
    (hok : ∀ log' u, log <:+ log' → Found users (fun u => u.username == req.identifier) log' u →
      jwt_svc.crates.bcrypt_verify req.password u.password_hash = some true →
      Learns (mandates jwt_svc wa) call (g (.ok u)) log' Q)
    (herror : ∀ log' e, log <:+ log' → Learns (mandates jwt_svc wa) call (g (.error e)) log' Q) :
    Learns (mandates jwt_svc wa) call (do
      g (← (UserService.username_login jwt_svc.crates ⟨req.identifier, req.password⟩).run)) log Q := by
  refine learns_run ?_
  unfold UserService.username_login
  by_cases he : (req.identifier.isEmpty || req.password.isEmpty) = true
  · rw [if_pos he]
    exact learnsE_throw (herror _ _ (List.suffix_refl _))
  rw [if_neg he]
  refine learnsE_bind (learnsE_lookup (fun log' u hlater hfound => ?_) fun log' e hlater =>
    herror _ _ hlater)
  cases hv : jwt_svc.crates.bcrypt_verify req.password u.password_hash with
  | none => exact learnsE_throw (herror _ _ hlater)
  | some ok =>
      cases ok with
      | false => exact learnsE_throw (herror _ _ hlater)
      | true => exact learnsE_ret (hok _ _ hlater hfound hv)

/-- A registration inserts the account it was asked for, under a hash of the password. -/
theorem learnsE_register {req : RegisterRequest} (hvalid : req.validate jwt_svc.crates = true)
    {Q : Replies → Unit → Prop} {E : Replies → AuthError → Prop}
    (hQ : ∀ log', Q log' ()) (hE : ∀ log' e, E log' e) :
    LearnsE (mandates jwt_svc wa) (.route (.register req))
      (UserService.register jwt_svc.crates req.username req.email req.password) log Q E := by
  unfold UserService.register
  by_cases he : (req.username.isEmpty || req.password.isEmpty) = true
  · rw [if_pos he]
    exact learnsE_throw (hE _ _)
  rw [if_neg he]
  by_cases hz : jwt_svc.crates.zxcvbn_score req.password < 3
  · rw [if_pos hz]
    exact learnsE_throw (hE _ _)
  rw [if_neg hz]
  refine learnsE_bind (learnsE_attempt (learns_hash fun r => ?_))
  change Except Failed String at r
  cases r with
  | error e => exact hE _ _
  | ok hash =>
      refine learnsE_bind (learnsE_bind (learnsE_lift (learns_now fun now => ?_)))
      refine learns_insert (fun id => ?_) (fun u => learnsE_ret (hQ _)) fun log' e _ => hE _ _
      exact MayAdd.register hvalid (Nat.le_of_not_lt hz)
        (List.mem_cons_of_mem _ List.mem_cons_self) List.mem_cons_self

/-- A change verifies the old password before it writes the new hash. -/
theorem learnsE_change_password {cookie : String} {req : ChangePasswordRequest}
    {params : SessionParams} {id : Identity} (hauth : Authenticated log cookie id)
    {Q : Replies → Unit → Prop} {E : Replies → AuthError → Prop}
    (hQ : ∀ log' u, log <:+ log' → Found users (fun u => u.id == id.sub) log' u →
      jwt_svc.crates.bcrypt_verify req.current_password u.password_hash = some true →
      HasCommitted log' → Q log' ())
    (hE : ∀ log' e, log <:+ log' → E log' e) :
    LearnsE (mandates jwt_svc wa) (.route (.change_password cookie req params))
      (UserService.change_password jwt_svc.crates
        ⟨id.sub, req.current_password, req.new_password⟩) log Q E := by
  unfold UserService.change_password
  by_cases hz : jwt_svc.crates.zxcvbn_score req.new_password < 3
  · rw [if_pos hz]
    exact learnsE_throw (hE _ _ (List.suffix_refl _))
  rw [if_neg hz]
  refine learnsE_bind (learnsE_password_hash_for (fun log₁ z hlater hfound => ?_) hE)
  by_cases hv : (jwt_svc.crates.bcrypt_verify req.current_password z.password_hash).getD false = true
  · have hverify : jwt_svc.crates.bcrypt_verify req.current_password z.password_hash = some true := by
      cases h : jwt_svc.crates.bcrypt_verify req.current_password z.password_hash with
      | none =>
          rw [h] at hv
          cases hv
      | some b =>
          rw [h] at hv
          exact congrArg some hv
    simp only [hv, Bool.not_true, Bool.false_eq_true, if_false]
    refine learnsE_bind (learnsE_attempt (learns_hash fun r => ?_))
    change Except Failed String at r
    have hhash := hlater.trans (List.suffix_cons ⟨.bcrypt_hash req.new_password, r⟩ log₁)
    cases r with
    | error e => exact hE _ _ hhash
    | ok hash =>
        refine learnsE_bind (learns_change (fun log' u hlater' hu => ?_) (fun _ => rfl)
          (fun past l hlater' _ => learnsE_ret ?_) fun log' e hlater' => hE _ _ (hhash.trans hlater'))
        · rw [users.set_inj]
          have hauth' : Authenticated log' cookie id := (hhash.trans hlater').subset hauth
          refine MayMake.change_password hauth' ?_ hverify (Nat.le_of_not_lt hz) ?_
            (by simpa using hu)
          · exact hfound.later ((List.suffix_cons _ _).trans hlater')
          · exact hlater'.subset List.mem_cons_self
        · have hdone := hlater'.trans (List.suffix_cons ⟨.sql .commit, Except.ok ()⟩ past)
          exact hQ _ z (hhash.trans hdone) (hfound.later ((List.suffix_cons _ _).trans hdone))
            hverify List.mem_cons_self
  · simp only [hv, Bool.not_false, if_true]
    exact learnsE_throw (hE _ _ hlater)

/-! ### Password resets -/

/-- A commit asks for nothing that needs a warrant. -/
theorem goesE_commit {err : DbError → ε} {Q : Replies → Unit → Prop} {E : Replies → ε → Prop}
    (hQ : Q (⟨.sql .commit, Except.ok ()⟩ :: log) ())
    (hE : ∀ log' e, log <:+ log' → E log' e) :
    GoesE (mandates jwt_svc wa).policy.protocol call (attempt err commit_tx) log Q E := by
  refine goesE_attempt (goes_step rfl permits_commit fun r => ?_)
  change Except DbError Unit at r
  cases r with
  | ok u => exact hQ
  | error e => exact hE _ _ (List.suffix_cons _ _)

/-- A reset is stored for the account of the address, under the hash of a token just drawn. -/
theorem learnsE_request_password_reset {req : PasswordResetRequest} {Q : Replies → Unit → Prop}
    {E : Replies → AuthError → Prop} (hQ : ∀ log', Q log' ()) (hE : ∀ log' e, E log' e) :
    LearnsE (mandates jwt_svc wa) (.route (.request_password_reset req))
      (UserService.request_password_reset jwt_svc.crates ⟨req.email⟩) log Q E := by
  refine learnsE_bind (learnsE_select (fun rows => ?_) fun log' e _ => hE _ _)
  cases hl : rows.filterMap users.prj with
  | nil => exact learnsE_ret (hQ _)
  | cons u rest =>
      have hfound : Found users (fun u => u.email == req.email)
          (⟨.sql (.select (users.sel fun u => u.email == req.email)), Except.ok rows⟩ :: log) u :=
        ⟨rows, List.mem_cons_self, by rw [hl]; exact List.mem_cons_self⟩
      refine learnsE_bind (learnsE_lift (learns_raw_token fun bytes => ?_))
      refine learnsE_bind (learnsE_lift (learns_now fun now => ?_))
      refine learnsE_bind (learnsE_attempt (learns_begin fun r => ?_))
      cases r with
      | error e => exact hE _ _
      | ok r =>
          -- the token and the clock were on record before the transaction began
          have hraw : ∀ log', ⟨.sql .begin, Except.ok r⟩ :: ⟨.now, now⟩ :: ⟨.fill 32, bytes⟩ ::
              ⟨.sql (.select (users.sel fun u => u.email == req.email)), Except.ok rows⟩ :: log <:+
                log' → base64url bytes ∈ drawn_tokens log' := fun log' hlater =>
            drawn_tokens_later (mem_drawn_tokens_cons (mem_drawn_tokens_cons List.mem_cons_self _) _)
              hlater
          refine learnsE_in_tx fun hw => ?_
          obtain ⟨htaken, hadding⟩ := nothing_in_hand hw
          refine goesE_bind (goesE_mono (goesE_insert (fun id => ?_)
            (.inr ⟨hadding, .inl htaken⟩)) (fun log₁ _ heq => ?_)
            fun log' e hlater => ⟨hlater, hE _ _⟩)
          · refine MayAdd.reset (hfound.later ?_) (hraw _ (List.suffix_refl _)) ?_
            · exact ((List.suffix_cons _ _).trans (List.suffix_cons _ _)).trans (List.suffix_cons _ _)
            · exact List.mem_cons_of_mem _ List.mem_cons_self
          have hlater := suffix_of_cons heq
          refine goesE_bind (goesE_mono (goesE_insert (fun _ => ?_) (.inl outbox_clashes))
            (fun log₂ _ heq₂ => ?_) fun log' e hlater₂ => ⟨hlater.trans hlater₂, hE _ _⟩)
          · refine MayAdd.reset_event (hfound.later ?_) (hraw _ hlater)
            exact (((List.suffix_cons _ _).trans (List.suffix_cons _ _)).trans
              (List.suffix_cons _ _)).trans hlater
          · have hall := hlater.trans (suffix_of_cons heq₂)
            exact goesE_commit ⟨hall.trans (List.suffix_cons _ _), hQ _⟩
              fun log' e hl => ⟨hall.trans hl, hE _ _⟩

/-- The new hash is written once a reset has been redeemed, for the owner of the reset. -/
theorem learnsE_confirm_password_reset {payload : PasswordResetConfirmRequest}
    {Q : Replies → Uuid → Prop} {E : Replies → AuthError → Prop}
    (hQ : ∀ log' now p, SpentReset log' (hash_token jwt_svc.crates payload.token) now p →
      HasCommitted log' → Q log' p.user_id)
    (hE : ∀ log' e, E log' e) :
    LearnsE (mandates jwt_svc wa) (.route (.confirm_password_reset payload))
      (UserService.confirm_password_reset jwt_svc.crates ⟨payload.token, payload.new_password⟩)
      log Q E := by
  unfold UserService.confirm_password_reset
  by_cases hz : jwt_svc.crates.zxcvbn_score payload.new_password < 3
  · rw [if_pos hz]
    exact learnsE_throw (hE _ _)
  rw [if_neg hz]
  refine learnsE_bind (learnsE_lift (learns_now fun now => ?_))
  refine learnsE_bind (learnsE_attempt (learns_begin fun r => ?_))
  cases r with
  | error e => exact hE _ _
  | ok r =>
      refine learnsE_in_tx fun hw => goesE_bind (goesE_mono (goesE_change (fun log' p hlater hp => ?_)
        (fun _ => rfl) (below_of_idle hw)) (fun log₁ l hl => ?_) fun log' e hlater => ⟨hlater, hE _ _⟩)
      · rw [password_resets.set_inj]
        exact MayMake.spend (hlater.subset (List.mem_cons_of_mem _ List.mem_cons_self)) hp
      obtain ⟨⟨hlater, hbelow⟩, hspent⟩ := hl
      cases l with
      | nil => exact goesE_throw ⟨hlater, hE _ _⟩
      | cons p rest =>
          have hp : SpentReset log₁ (hash_token jwt_svc.crates payload.token) now p :=
            hspent p List.mem_cons_self
          refine goesE_bind (goesE_attempt (goes_step rfl (MayPut.other trivial) fun r => ?_))
          change Except Failed String at r
          have hhash := hlater.trans (List.suffix_cons ⟨.bcrypt_hash payload.new_password, r⟩ log₁)
          cases r with
          | error e => exact ⟨hhash, hE _ _⟩
          | ok hash =>
              refine goesE_bind (goesE_mono (goesE_change (fun log' u hlater' hu => ?_)
                (fun _ => rfl) ⟨hbelow.adding, hbelow.taken⟩)
                (fun log₂ l hl => ?_) fun log' e hlater' => ⟨hhash.trans hlater', hE _ _⟩)
              · rw [users.set_inj]
                refine MayMake.reset_password (hp.mono ?_) (Nat.le_of_not_lt hz) ?_
                  (by simpa using hu)
                · exact (List.suffix_cons _ _).trans hlater'
                · exact hlater'.subset List.mem_cons_self
              · have hall := hhash.trans hl.1.1
                refine goesE_bind (goesE_commit (goesE_ret ?_) fun log' e hl' =>
                  ⟨hall.trans hl', hE _ _⟩)
                refine ⟨hall.trans (List.suffix_cons _ _), hQ _ now p (hp.mono ?_) ?_⟩
                · exact (((List.suffix_cons _ _).trans hl.1.1).trans (List.suffix_cons _ _)).trans
                    (List.suffix_cons _ _)
                · exact List.mem_cons_of_mem _ List.mem_cons_self

/-! ### Refresh tokens -/

/-- A pair is issued to the identity the middleware let in. -/
theorem learnsE_issue_token_pair {cookie : String} {id : Identity}
    (hauth : Authenticated log cookie id) {Q : Replies → JwtResult → Prop}
    {E : Replies → JwtError → Prop}
    (hQ : ∀ log' (res : JwtResult), log <:+ log' →
      ⟨.sign id.sub jwt_svc.aud, Except.ok res.access_token⟩ ∈ log' →
      TokenRecorded jwt_svc.crates log' id.sub res.refresh_token → Q log' res)
    (hE : ∀ log' e, log <:+ log' → E log' e) :
    LearnsE (mandates jwt_svc wa) (.route (.jwt cookie))
      (jwt_svc.issue_token_pair id.sub "session") log Q E := by
  refine learnsE_bind (learnsE_attempt (learns_ask rfl (fun _ => rfl) (fun _ => .other trivial)
    fun r => ?_))
  change Except String String at r
  cases r with
  | error e => exact hE _ _ (List.suffix_cons _ _)
  | ok access =>
      refine learnsE_bind (learnsE_lift (learns_raw_token fun bytes => ?_))
      refine learnsE_bind (learnsE_lift (learns_now fun now => ?_))
      refine learnsE_bind (learnsE_lift (learns_now fun now' => ?_))
      have hlater : log <:+ ⟨.now, now'⟩ :: ⟨.now, now⟩ :: ⟨.fill 32, bytes⟩ ::
          ⟨.sign id.sub jwt_svc.aud, Except.ok access⟩ :: log :=
        ⟨[_, _, _, _], rfl⟩
      refine learnsE_bind (learns_insert (fun _ => ?_) (fun t => learnsE_ret (hQ _ _ ?_ ?_ ?_))
        fun log' e hl => hE _ _ (hlater.trans hl))
      · refine MayAdd.jwt (hlater.subset hauth) ?_ (List.mem_cons_of_mem _ List.mem_cons_self)
          List.mem_cons_self
        exact mem_drawn_tokens_cons (mem_drawn_tokens_cons List.mem_cons_self _) _
      · exact hlater.trans ⟨[_, _], rfl⟩
      · simp
      · exact ⟨_, t, _, List.suffix_refl _, fun _ => ⟨rfl, rfl⟩⟩

/-- The row read for a presented token has its hash. -/
theorem learnsE_get_refresh_token_by_hash {hash : String} {Q : Replies → RefreshTokenRow → Prop}
    {E : Replies → JwtError → Prop}
    (hQ : ∀ log' t row, log <:+ log' → Found refresh_tokens (fun t => t.token_hash == hash) log' t →
      row.user_id = t.user_id → row.issuer = t.issuer → t.revoked = some row.revoked → Q log' row)
    (hE : ∀ log' e, log <:+ log' → E log' e) :
    LearnsE (mandates jwt_svc wa) call (JwtService.get_refresh_token_by_hash hash) log Q E := by
  refine learnsE_bind (learnsE_select (fun rows => ?_) hE)
  have hlater : log <:+
      ⟨.sql (.select (refresh_tokens.sel fun t => t.token_hash == hash)), Except.ok rows⟩ :: log :=
    List.suffix_cons _ _
  cases hl : rows.filterMap refresh_tokens.prj with
  | nil => exact learnsE_throw (hE _ _ hlater)
  | cons t rest =>
      dsimp only
      cases hrev : t.revoked with
      | none => exact learnsE_throw (hE _ _ hlater)
      | some revoked =>
          refine learnsE_ret (hQ _ t _ hlater ⟨rows, List.mem_cons_self, ?_⟩ rfl rfl hrev)
          rw [hl]
          exact List.mem_cons_self

/-- The replies show a live token with the hash of what was presented, and its owner. -/
def PresentsLive (jwt_svc : JwtService) (cmd : RefreshCmd) (log : Replies) (t : RefreshToken)
    (r : UserResponse) : Prop :=
  Found refresh_tokens
      (fun t => t.token_hash == hash_token jwt_svc.crates (trim cmd.refresh_token)) log t ∧
    t.revoked = some false ∧ Retrieved log t.user_id r

/-- That stays on record. -/
theorem PresentsLive.later {cmd : RefreshCmd} {t : RefreshToken} {r : UserResponse} {log' : Replies}
    (h : PresentsLive jwt_svc cmd log t r) (hlater : log <:+ log') :
    PresentsLive jwt_svc cmd log' t r := ⟨h.1.later hlater, h.2.1, hlater.subset h.2.2⟩

/-- The new pair, in the transaction the old token was deleted in. -/
theorem goesE_issue_token_pair {cmd : RefreshCmd} {t : RefreshToken} {r : UserResponse}
    (hpresented : PresentsLive jwt_svc cmd log t r) (hadding : adding log = false) :
    GoesE (mandates jwt_svc wa).policy.protocol (.route (.refresh cmd))
      (jwt_svc.issue_token_pair_with .tx r.id t.issuer) log
      (fun (log' : Replies) res => log <:+ log' ∧
        ⟨.sign r.id jwt_svc.aud, Except.ok res.access_token⟩ ∈ log' ∧
        TokenRecorded jwt_svc.crates (⟨.sql .commit, Except.ok ()⟩ :: log') r.id res.refresh_token)
      fun log' _ => log <:+ log' := by
  refine goesE_bind (goesE_attempt (goes_step rfl (MayPut.other trivial) fun signed => ?_))
  change Except String String at signed
  cases signed with
  | error e => exact List.suffix_cons _ _
  | ok access =>
      refine goesE_bind (goesE_lift (goes_bind (goes_step rfl (MayPut.other trivial) fun bytes => ?_)))
      refine goes_ret (goesE_bind (goesE_lift (goes_step rfl (MayPut.other trivial) fun now => ?_)))
      refine goesE_bind (goesE_lift (goes_step rfl (MayPut.other trivial) fun now' => ?_))
      have hlater : log <:+ ⟨.now, now'⟩ :: ⟨.now, now⟩ :: ⟨.fill 32, bytes⟩ ::
          ⟨.sign r.id jwt_svc.aud, Except.ok access⟩ :: log :=
        ⟨[_, _, _, _], rfl⟩
      refine goesE_bind (goesE_mono (goesE_insert (fun _ => ?_)
        (.inr ⟨hadding, .inr ⟨_, rfl, rfl⟩⟩)) (fun log₁ t heq => goesE_ret ?_)
        fun log' e hl => hlater.trans hl)
      · obtain ⟨hfound, hlive, hr⟩ := hpresented.later hlater
        refine MayAdd.refresh hfound hlive hr ?_ (List.mem_cons_of_mem _ List.mem_cons_self)
          List.mem_cons_self
        exact mem_drawn_tokens_cons (mem_drawn_tokens_cons List.mem_cons_self _) _
      · subst heq
        exact ⟨hlater.trans (List.suffix_cons _ _), by simp, _, t, _, List.suffix_refl _,
          fun _ => ⟨rfl, rfl⟩⟩

/-- A refresh issues to the owner of the live token it has read, and deletes that one. -/
theorem learnsE_refresh {cmd : RefreshCmd} {Q : Replies → JwtResult → Prop}
    {E : Replies → JwtError → Prop}
    (hQ : ∀ (log' : Replies) (res : JwtResult) t r, PresentsLive jwt_svc cmd log' t r →
      ⟨.sign r.id jwt_svc.aud, Except.ok res.access_token⟩ ∈ log' →
      TokenRecorded jwt_svc.crates log' r.id res.refresh_token → Q log' res)
    (hE : ∀ log' e, E log' e) :
    LearnsE (mandates jwt_svc wa) (.route (.refresh cmd)) (jwt_svc.refresh cmd) log Q E := by
  unfold JwtService.refresh
  dsimp only
  by_cases he : (trim cmd.refresh_token).isEmpty = true
  · rw [if_pos he]
    exact learnsE_throw (hE _ _)
  rw [if_neg he]
  refine learnsE_bind (learnsE_attempt (learns_begin fun r => ?_))
  cases r with
  | error e => exact hE _ _
  | ok r =>
      refine learnsE_in_tx fun hw => goesE_bind ?_
      refine goesE_mono ((learnsE_get_refresh_token_by_hash (Q := fun log' row => ∃ t,
          Found refresh_tokens
            (fun t => t.token_hash == hash_token jwt_svc.crates (trim cmd.refresh_token)) log' t ∧
          row.user_id = t.user_id ∧ row.issuer = t.issuer ∧ t.revoked = some row.revoked)
          (E := fun _ _ => True) (fun log' t row _ hf hu hi hrev => ⟨t, hf, hu, hi, hrev⟩)
          fun _ _ _ => trivial).goesE hw)
        (fun log₁ row h₁ => ?_) fun log' e h => ⟨h.1, hE _ _⟩
      obtain ⟨hlater, hw₁, t, hfound, huser, hissuer, hrevoked⟩ := h₁
      by_cases hrev : row.revoked = true
      · rw [if_pos hrev]
        exact goesE_throw ⟨hlater, hE _ _⟩
      rw [if_neg hrev]
      have hlive : t.revoked = some false := by
        rw [hrevoked]
        simpa using hrev
      refine goesE_bind (goesE_lift (goes_step rfl (MayPut.other trivial) fun now => ?_))
      have hnow := hlater.trans (List.suffix_cons ⟨.now, now⟩ log₁)
      by_cases hx : row.expires_at < (now : Time)
      · rw [if_pos hx]
        exact goesE_throw ⟨hnow, hE _ _⟩
      rw [if_neg hx]
      refine goesE_bind (goesE_attempt (goes_step rfl (MayPut.other trivial) fun got => ?_))
      change Except ApiError UserResponse at got
      have hgot := hnow.trans (List.suffix_cons ⟨.retrieve row.user_id, got⟩ _)
      cases got with
      | error e => exact ⟨hgot, hE _ _⟩
      | ok r =>
          have hpresented : PresentsLive jwt_svc cmd (⟨.retrieve row.user_id, Except.ok r⟩ ::
              ⟨.now, now⟩ :: log₁) t r :=
            ⟨hfound.later ⟨[_, _], rfl⟩, hlive, by rw [huser]; exact List.mem_cons_self⟩
          refine goesE_bind (goesE_bind (goesE_mono (goesE_change (fun log' t' hl ht => ?_)
            (fun _ => rfl) (below_of_idle hw₁)) (fun log₂ l hl => goesE_ret ?_)
            fun log' e hl => ⟨hgot.trans hl, hE _ _⟩))
          · obtain ⟨hfound', hlive', -⟩ := hpresented.later hl
            exact MayMake.exchange hfound' hlive' (by simpa using ht)
          rw [hissuer]
          obtain ⟨⟨hl, hbelow⟩, -⟩ := hl
          refine goesE_bind (goesE_mono (goesE_issue_token_pair (hpresented.later hl) hbelow.adding)
            (fun log₃ res hres => ?_) fun log' e hl' => ⟨hgot.trans (hl.trans hl'), hE _ _⟩)
          have hall := hgot.trans (hl.trans hres.1)
          refine goesE_bind (goesE_commit (goesE_ret ⟨hall.trans (List.suffix_cons _ _), ?_⟩)
            fun log' e hl' => ⟨hall.trans hl', hE _ _⟩)
          refine hQ _ res t r (hpresented.later ((hl.trans hres.1).trans ⟨[_, _], rfl⟩)) ?_ ?_
          · exact List.mem_cons_of_mem _ (List.mem_cons_of_mem _ hres.2.1)
          · exact hres.2.2.later (List.suffix_cons _ _)

/-- A logout revokes what has the hash of the presented token. -/
theorem learnsE_jwt_logout {cmd : LogoutCmd} {Q : Replies → Unit → Prop}
    {E : Replies → JwtError → Prop} (hQ : ∀ log', Q log' ()) (hE : ∀ log' e, E log' e) :
    LearnsE (mandates jwt_svc wa) (.route (.jwt_logout cmd)) (jwt_svc.logout cmd) log Q E := by
  unfold JwtService.logout
  dsimp only
  by_cases he : (trim cmd.refresh_token).isEmpty = true
  · rw [if_pos he]
    exact learnsE_throw (hE _ _)
  rw [if_neg he]
  refine learns_run (learnsE_bind (learns_change (fun log' t _ ht => ?_) (fun _ => rfl)
    (fun past l hlater _ => ?_) fun log' e _ => ?_))
  · exact MayMake.jwt_logout (by simpa using ht)
  · by_cases hl : l.length = 0
    · rw [if_pos hl]
      exact learnsE_throw (learns_ret (hQ _))
    · rw [if_neg hl]
      exact learnsE_ret (learns_ret (hQ _))
  · cases e with
    | RefreshTokenNotFound => exact learns_ret (hQ _)
    | _ => exact learns_ret (hE _ _)

end Functions

end Authnz
