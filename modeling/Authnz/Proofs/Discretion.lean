/-
What the password endpoints give away.

In every state requests lead to, each stored hash is one bcrypt made, so a login that
fails has one answer for its identifier and password, whoever has an account.  A
request for a reset has one answer altogether, and a reset token that is not accepted
has one answer for the new password, whatever is wrong with it.
-/
import Authnz.Proofs.Logins

namespace Authnz

open Basis

/-- `bcrypt::verify` can parse whatever `bcrypt::hash` made. -/
def BcryptParses (c : Crates) : Prop := ∀ p q salt, c.bcrypt_verify p (c.bcrypt_hash q salt) ≠ none

/-- The hash is one bcrypt made. -/
def User.Hashed (c : Crates) (u : User) : Prop := ∃ q salt, u.password_hash = c.bcrypt_hash q salt

/-- Every account's hash is. -/
def World.Hashed (c : Crates) (w : World) : Prop :=
  ∀ {d : Nat} {u : User}, w.row users d = some u → u.Hashed c

section Hashed

variable {Reg Cred : Type} {c : Crates} {w w' : World} {admits : World → Op → Choice → Prop}

theorem World.Hashed.same (h : w.Hashed c) (hrows : ∀ d, w'.row users d = w.row users d) :
    w'.Hashed c := by
  intro d u hu
  rw [hrows] at hu
  exact h hu

/-- Rows rewritten, each with a hash bcrypt made or its old one. -/
theorem World.Hashed.rewritten (h : w.Hashed c) {q : User → Bool} {f : User → User}
    (hf : ∀ u, u.Hashed c → (f u).Hashed c)
    (hrows : ∀ d, w'.row users d = (w.row users d).map fun u => if q u then f u else u) :
    w'.Hashed c := by
  intro d u hu
  rw [hrows] at hu
  obtain ⟨v, hv, rfl⟩ := Option.map_eq_some_iff.mp hu
  by_cases hq : q v = true
  · rw [if_pos hq]
    exact hf v (h hv)
  · rw [if_neg hq]
    exact h hv

/-- What the walks through the requests keep. -/
def HashedSteady (c : Crates) (w : World) : Prop := w.Steady 0 users ∧ w.Hashed c

theorem hashed_uses {α : Type} {p : Handler α}
    (hp : p.Uses fun o => (∀ q, o.statement = some q → Apart users.prj q) ∨ UserUpdate o) :
    Keeps c 0 admits (HashedSteady c) p := by
  refine keeps_of_uses hp fun w o ch w' r ho _ hans ⟨hst, hh⟩ => ?_
  rcases ho with ho | ⟨id, dto, rfl⟩
  · obtain ⟨hst', hrows⟩ := Apart.frame ho hans hst
    exact ⟨hst', hh.same hrows⟩
  · obtain ⟨hst', hsame | ⟨-, u, -, -, -, hrows⟩⟩ := update_accounts hans hst
    · exact ⟨hst', hh.same hsame⟩
    · exact ⟨hst', hh.rewritten (f := (·.update dto)) (fun u hu => hu) hrows⟩

theorem Orderly.hashed {α : Type} {p : Handler α} (hp : Orderly c 0 Plain p) :
    Keeps c 0 admits (HashedSteady c) p :=
  hashed_uses (uses_mono hp.uses fun _ ho => .inl fun _ hq => ho.apart users_elsewhere hq)

/-- **Every request leaves hashes bcrypt made.** -/
theorem Request.hashed (jwt_svc : JwtService) (wa : Webauthn Reg Cred) (hset : w.Settled 0)
    (hh : w.Hashed c) (req : Request Reg Cred) :
    Ends c 0 admits (req.handler c jwt_svc wa) w fun w' _ => w'.Hashed c := by
  by_cases hreq : ¬ req.sets_password
  · exact ends_mono (hashed_uses (uses_mono (req.uses c jwt_svc wa) fun _ => req.accounts hreq) w
      ⟨hset.steady users, hh⟩) fun _ _ h => h.2
  cases req with
  | register req =>
      change Ends c 0 admits (handlers.register c req) w _
      unfold handlers.register
      by_cases hvalid : (!req.validate c) = true
      · rw [if_pos hvalid]
        exact ends_ret hh
      rw [if_neg hvalid]
      refine ends_run (endsE_mono (register_ends hset _ _ _) ?_ ?_)
      · intro w' _ hpost
        obtain ⟨u, salt, _, _, hhash, _, _, hplaces, _⟩ := hpost
        refine ends_ret fun {d v} hv => ?_
        rw [row_of_insert hplaces] at hv
        by_cases hd : d = w.db.length
        · rw [if_pos hd] at hv
          cases hv
          exact ⟨_, salt, hhash⟩
        · rw [if_neg hd] at hv
          exact hh hv
      · intro w' e hw
        subst hw
        exact ends_ret hh
  | change_password cookie req params =>
      refine ends_bind (ends_ask fun ch w₁ session _ hans => ?_)
      obtain rfl := (World.answer_authenticate hans).1
      change Option Identity at session
      cases session with
      | none => exact ends_ret hh
      | some session =>
          refine ends_run (endsE_mono (change_password_ends hset _) ?_ ?_)
          · intro w₂ _ hpost
            obtain ⟨⟨u, us, salt, _, _, hplaces⟩, _, hset₂, _⟩ := hpost
            have hh₂ : w₂.Hashed c := hh.rewritten
              (f := (·.with_hash (c.bcrypt_hash req.new_password salt)))
              (fun v _ => ⟨_, salt, rfl⟩) (row_of_update hplaces)
            exact ends_mono ((after_change_orderly session.sub params).hashed w₂
              ⟨hset₂.steady users, hh₂⟩) fun _ _ h => h.2
          · intro w₂ e hw₂
            subst hw₂
            exact ends_ret hh
  | confirm_password_reset payload =>
      refine ends_run (endsE_mono (confirm_password_reset_ends hset _) ?_ ?_)
      · intro w₂ user_id hpost
        obtain ⟨⟨salt, now, hplaces⟩, _, hset₂⟩ := hpost
        have hh₂ : w₂.Hashed c := hh.rewritten
          (f := (·.with_hash_at (c.bcrypt_hash payload.new_password salt) now))
          (fun v _ => ⟨_, salt, rfl⟩) (row_of_reset hplaces)
        exact ends_mono ((after_reset_orderly user_id).hashed w₂ ⟨hset₂.steady users, hh₂⟩)
          fun _ _ h => h.2
      · intro w₂ e hpost
        obtain ⟨hplaces, _⟩ := hpost
        refine ends_ret (hh.same fun d => ?_)
        rw [row_of_places, row_of_places, hplaces]
  | _ => exact (hreq fun h => h).elim

end Hashed

section Reached

variable {Reg Cred : Type} (c : Crates) (jwt_svc : JwtService) (wa : Webauthn Reg Cred)

/-- A state that requests lead to from a database whose hashes are bcrypt's, whatever fails. -/
def Reached (w : World) : Prop :=
  ∃ rows served, (∀ (d : Nat) (u : User), rows[d]? = some (.user u) → u.Hashed c) ∧
    Runs c jwt_svc wa Anyhow (World.of rows) served w

variable {c jwt_svc wa}

theorem Reached.hashed {w : World} (h : Reached c jwt_svc wa w) : w.Settled 0 ∧ w.Hashed c := by
  obtain ⟨rows, served, hrows, hruns⟩ := h
  refine hruns.invariant (I := fun w => w.Settled 0 ∧ w.Hashed c) ?_ ?_ ?_
  · intro req resp w w' hpost hrun
    obtain ⟨hset, hh⟩ := hpost
    have horderly : Orderly c 0 _ (req.handler c jwt_svc wa) := req.orderly jwt_svc wa
    exact ⟨horderly.settles hset _ _ hrun, req.hashed jwt_svc wa hset hh _ _ hrun⟩
  · intro e w hpost
    obtain ⟨hset, hh⟩ := hpost
    have hdb := World.expire_db e w
    refine ⟨by rw [World.Settled, hdb]; exact hset, hh.same fun d => ?_⟩
    rw [World.row, hdb]
    rfl
  · exact ⟨settled_of 0 rows, fun hu => hrows _ _ (row_of_iff.mp hu)⟩

end Reached

/-! ### One answer each -/

/-- Nothing fails, and a new session gets an id that is free. -/
structure Sturdy (c : Crates) (w : World) (o : Op) (ch : Choice) : Prop where
  nofail : ch ≠ .fail
  issue : ∀ new, o = session_insert new → ∀ w' e,
    World.answer c 0 (session_insert new) ch w ≠ some (w', Except.error e)

/-- The answer to a login that fails. -/
def refused_login (identifier password : String) : HttpResponse :=
  auth_error_to_response
    (if identifier.isEmpty || password.isEmpty then .MissingCredentials else .InvalidCredentials)

/-- The answer to a reset token that is not accepted. -/
def refused_reset (c : Crates) (new_password : String) : HttpResponse :=
  auth_error_to_response
    (if c.zxcvbn_score new_password < 3 then .PasswordTooShort else .InvalidToken)

section Answers

variable {c : Crates} {w : World}

/-- Where every hash parses, credentials are refused in one way. -/
theorem credentials_ends (hbcrypt : BcryptParses c) (hset : w.Settled 0) (hh : w.Hashed c)
    (q : String → User → Bool) (identifier password : String) :
    EndsE c 0 (Sturdy c) (credentials c q ⟨identifier, password⟩) w (fun _ _ => True)
      (fun _ e => auth_error_to_response e = refused_login identifier password) := by
  unfold credentials refused_login
  by_cases he : (identifier.isEmpty || password.isEmpty) = true
  · rw [if_pos he, if_pos he]
    exact endsE_throw rfl
  rw [if_neg he, if_neg he]
  refine endsE_bind (endsE_bind (endsE_select ?_ fun _ hfail => absurd rfl hfail.nofail))
  cases hrows : (w.sees 0 users).filter (q identifier) with
  | nil => exact endsE_throw rfl
  | cons u us =>
      refine endsE_ret ?_
      have hu : u.Hashed c := by
        have hmem : u ∈ (w.sees 0 users).filter (q identifier) := by
          rw [hrows]
          exact List.mem_cons_self
        obtain ⟨d, hd⟩ := mem_sees_iff.mp (List.mem_filter.mp hmem).1
        rw [hset.steady users d] at hd
        exact hh hd
      obtain ⟨p, salt, hhash⟩ := hu
      cases hv : c.bcrypt_verify password u.password_hash with
      | none =>
          rw [hhash] at hv
          exact absurd hv (hbcrypt _ _ _)
      | some b =>
          cases b with
          | true => exact endsE_ret trivial
          | false => exact endsE_throw rfl

theorem start_session_ends (user : User) (params : SessionParams) :
    Ends c 0 (Sturdy c) (handlers.start_session c user params) w fun _ resp => resp.status = 200 := by
  refine ends_bind (ends_bind (ends_now fun now => ends_ret ?_))
  refine ends_run (endsE_bind (endsE_lift (ends_now fun t => endsE_bind (endsE_attempt
    (ends_bind (ends_ask fun ch w' r hch hans => ?_))))))
  cases r with
  | error e => exact absurd hans (hch.issue _ rfl _ _)
  | ok row =>
      obtain ⟨out, -, hdb, -⟩ := World.answer_sql hans
      rcases SqlOp.alone_insert hdb with ⟨key, -, -, -, heq⟩ | ⟨key, -, -, -, heq⟩ | ⟨-, -, heq⟩
      · cases heq
        exact ends_ret (endsE_ret (ends_ret rfl))
      · cases heq
      · cases heq

/-- A login that fails gives the one answer for its identifier and password. -/
theorem login_answers (hbcrypt : BcryptParses c) (hset : w.Settled 0) (hh : w.Hashed c)
    (req : LoginRequest) (params : SessionParams) :
    Ends c 0 (Sturdy c) (handlers.login c req params) w fun _ resp =>
      resp.status = 200 ∨ resp = refused_login req.identifier req.password := by
  unfold handlers.login
  rw [password_login_eq]
  refine ends_run (endsE_mono (credentials_ends hbcrypt hset hh _ _ _) ?_ ?_)
  · exact fun w' user _ => ends_mono (start_session_ends user params) fun _ _ h => .inl h
  · exact fun w' e he => ends_ret (.inr he)

theorem username_login_answers (hbcrypt : BcryptParses c) (hset : w.Settled 0) (hh : w.Hashed c)
    (req : LoginRequest) (params : SessionParams) :
    Ends c 0 (Sturdy c) (handlers.username_login c req params) w fun _ resp =>
      resp.status = 200 ∨ resp = refused_login req.identifier req.password := by
  unfold handlers.username_login
  rw [username_login_eq]
  refine ends_run (endsE_mono (credentials_ends hbcrypt hset hh _ _ _) ?_ ?_)
  · exact fun w' user _ => ends_mono (start_session_ends user params) fun _ _ h => .inl h
  · exact fun w' e he => ends_ret (.inr he)

/-- Nothing fails, and the clock shows this. -/
structure Clocked (now : Time) (w : World) (o : Op) (ch : Choice) : Prop where
  nofail : ch ≠ .fail
  clock : ∀ t, ch = .time t → t = now

/-- No reset token is stored that could be redeemed: the token is unknown, used or expired. -/
def Unacceptable (c : Crates) (token : String) (now : Time) (w : World) : Prop :=
  ∀ p ∈ w.rows password_resets, Redeemable (hash_token c token) now p = false

theorem confirm_password_reset_answers (hset : w.Settled 0) {now : Time}
    (payload : PasswordResetConfirmRequest) (hno : Unacceptable c payload.token now w) :
    Ends c 0 (Clocked now) (handlers.confirm_password_reset c payload) w fun _ resp =>
      resp = refused_reset c payload.new_password := by
  unfold handlers.confirm_password_reset refused_reset
  refine ends_run (endsE_mono (Q := fun _ _ => False) (E := fun _ e => e =
    if c.zxcvbn_score payload.new_password < 3 then .PasswordTooShort else .InvalidToken) ?_
    (fun _ _ h => h.elim) fun _ e he => ends_ret (by rw [he]))
  unfold UserService.confirm_password_reset
  by_cases hs : c.zxcvbn_score payload.new_password < 3
  · rw [if_pos hs, if_pos hs]
    exact endsE_throw rfl
  rw [if_neg hs, if_neg hs]
  refine endsE_bind (endsE_lift (ends_ask fun ch w₁ t hch hans => ?_))
  obtain ⟨rfl, rfl⟩ := World.answer_now hans
  obtain rfl := hch.clock _ rfl
  refine endsE_bind (endsE_begin ?_ fun _ hfail => absurd rfl hfail.nofail)
  refine endsE_in_tx (endsE_mono (Q := fun _ _ => False) (E := fun _ e => e = .InvalidToken) ?_
    (fun _ _ h => h.elim) fun _ _ he _ _ _ => he)
  refine endsE_bind (endsE_update (fun w₂ _ _ => ?_) fun _ hfail => absurd rfl hfail.nofail)
  have hnil : (w₁.sees 0 password_resets).filter (Redeemable (hash_token c payload.token) t) = [] := by
    refine List.filter_eq_nil_iff.mpr fun p hp => ?_
    obtain ⟨d, hd⟩ := mem_sees_iff.mp hp
    rw [hset.steady password_resets d] at hd
    rw [hno p (mem_rows_iff.mpr ⟨d, hd⟩)]
    exact Bool.false_ne_true
  generalize hrows : ((w₁.sees 0 password_resets).filter _).map _ = rows
  cases rows with
  | nil => exact endsE_throw rfl
  | cons reset rest =>
      have heq := List.map_eq_cons_iff.mp hrows
      obtain ⟨p, ps, hp, -⟩ := heq
      exact absurd (hnil.symm.trans hp) (by simp)

end Answers

section Discreet

variable {Reg Cred : Type} {c : Crates} {jwt_svc : JwtService} {wa : Webauthn Reg Cred}

/-- **The password endpoints do not tell who has an account.** Two failed logins with the same
identifier and password are answered alike in any two states that requests lead to, and so are two
resets with tokens that are not accepted; every request for a reset is answered alike. -/
theorem password_endpoints_discreet (hbcrypt : BcryptParses c) :
    (∀ {w₁ w₂ w₁' w₂' : World} {req : LoginRequest} {params₁ params₂ : SessionParams}
        {resp₁ resp₂ : HttpResponse},
      Reached c jwt_svc wa w₁ → Reached c jwt_svc wa w₂ →
      Prog.Exec (World.answer c) 0 (Sturdy c) (handlers.login c req params₁) w₁ resp₁ w₁' →
      Prog.Exec (World.answer c) 0 (Sturdy c) (handlers.login c req params₂) w₂ resp₂ w₂' →
      resp₁.status ≠ 200 → resp₂.status ≠ 200 → resp₁ = resp₂) ∧
    (∀ {w₁ w₂ w₁' w₂' : World} {req : LoginRequest} {params₁ params₂ : SessionParams}
        {resp₁ resp₂ : HttpResponse},
      Reached c jwt_svc wa w₁ → Reached c jwt_svc wa w₂ →
      Prog.Exec (World.answer c) 0 (Sturdy c) (handlers.username_login c req params₁) w₁ resp₁ w₁' →
      Prog.Exec (World.answer c) 0 (Sturdy c) (handlers.username_login c req params₂) w₂ resp₂ w₂' →
      resp₁.status ≠ 200 → resp₂.status ≠ 200 → resp₁ = resp₂) ∧
    (∀ {w₁ w₂ w₁' w₂' : World} {req₁ req₂ : PasswordResetRequest} {resp₁ resp₂ : HttpResponse},
      Prog.Exec (World.answer c) 0 Anyhow (handlers.request_password_reset c req₁) w₁ resp₁ w₁' →
      Prog.Exec (World.answer c) 0 Anyhow (handlers.request_password_reset c req₂) w₂ resp₂ w₂' →
      resp₁ = resp₂) ∧
    (∀ {w₁ w₂ w₁' w₂' : World} {now₁ now₂ : Time} {token₁ token₂ new_password : String}
        {resp₁ resp₂ : HttpResponse},
      Reached c jwt_svc wa w₁ → Reached c jwt_svc wa w₂ →
      Unacceptable c token₁ now₁ w₁ → Unacceptable c token₂ now₂ w₂ →
      Prog.Exec (World.answer c) 0 (Clocked now₁)
        (handlers.confirm_password_reset c ⟨token₁, new_password⟩) w₁ resp₁ w₁' →
      Prog.Exec (World.answer c) 0 (Clocked now₂)
        (handlers.confirm_password_reset c ⟨token₂, new_password⟩) w₂ resp₂ w₂' →
      resp₁ = resp₂) := by
  refine ⟨?_, ?_, ?_, ?_⟩
  · intro w₁ w₂ w₁' w₂' req params₁ params₂ resp₁ resp₂ h₁ h₂ hrun₁ hrun₂ hno₁ hno₂
    have hone : ∀ {w w' : World} {params : SessionParams} {resp : HttpResponse},
        Reached c jwt_svc wa w →
        Prog.Exec (World.answer c) 0 (Sturdy c) (handlers.login c req params) w resp w' →
        resp.status ≠ 200 → resp = refused_login req.identifier req.password := by
      intro w w' params resp h hrun hno
      obtain ⟨hset, hh⟩ := h.hashed
      exact (login_answers hbcrypt hset hh req params _ _ hrun).resolve_left hno
    rw [hone h₁ hrun₁ hno₁, hone h₂ hrun₂ hno₂]
  · intro w₁ w₂ w₁' w₂' req params₁ params₂ resp₁ resp₂ h₁ h₂ hrun₁ hrun₂ hno₁ hno₂
    have hone : ∀ {w w' : World} {params : SessionParams} {resp : HttpResponse},
        Reached c jwt_svc wa w →
        Prog.Exec (World.answer c) 0 (Sturdy c) (handlers.username_login c req params) w resp w' →
        resp.status ≠ 200 → resp = refused_login req.identifier req.password := by
      intro w w' params resp h hrun hno
      obtain ⟨hset, hh⟩ := h.hashed
      exact (username_login_answers hbcrypt hset hh req params _ _ hrun).resolve_left hno
    rw [hone h₁ hrun₁ hno₁, hone h₂ hrun₂ hno₂]
  · intro w₁ w₂ w₁' w₂' req₁ req₂ resp₁ resp₂ hrun₁ hrun₂
    obtain ⟨_, _, -, hret₁⟩ := Prog.exec_bind.mp hrun₁
    obtain ⟨_, _, -, hret₂⟩ := Prog.exec_bind.mp hrun₂
    rw [(Prog.exec_ret.mp hret₁).1, (Prog.exec_ret.mp hret₂).1]
  · intro w₁ w₂ w₁' w₂' now₁ now₂ token₁ token₂ new_password resp₁ resp₂ h₁ h₂ hno₁ hno₂ hrun₁ hrun₂
    rw [confirm_password_reset_answers h₁.hashed.1 ⟨token₁, new_password⟩ hno₁ _ _ hrun₁,
      confirm_password_reset_answers h₂.hashed.1 ⟨token₂, new_password⟩ hno₂ _ _ hrun₂]

end Discreet

/-! ### With and without an account -/

theorem sample_bcrypt_parses : BcryptParses sample_crates := by
  intro p q salt h
  rw [sample_bcrypt_exact p q salt] at h
  cases h

/-- Alice, with a reset token that is used up. -/
def with_alice : List Record :=
  [.user (sample_user "correct horse battery staple"),
    .password_reset { sample_reset (token_of 1) with used := some true }]

theorem reached_with_alice :
    Reached sample_crates sample_jwt sample_webauthn (World.of with_alice) := by
  refine ⟨with_alice, [], fun d u hd => ?_, .nil _⟩
  rcases d with _ | _ | d
  · cases hd
    exact ⟨_, _, rfl⟩
  · cases hd
  · cases hd

theorem reached_without : Reached sample_crates sample_jwt sample_webauthn (World.of []) :=
  ⟨[], [], fun _ _ hd => (nomatch hd), .nil _⟩

/-- Only lookups, and none fails. -/
def looking (_ : World) (o : Op) (ch : Choice) : Bool :=
  match o, ch with
  | .sql (.select _), .go => true
  | _, _ => false

theorem sturdy_of_looking {w : World} {o : Op} {ch : Choice} (h : looking w o ch = true) :
    Sturdy sample_crates w o ch := by
  unfold looking at h
  split at h
  · exact ⟨by simp, fun new ho => by cases ho⟩
  · cases h

/-- Nothing fails, at midnight. -/
def at_midnight (_ : World) (_ : Op) (ch : Choice) : Bool := ch == .go || ch == .time 0

theorem clocked_of_midnight {w : World} {o : Op} {ch : Choice} (h : at_midnight w o ch = true) :
    Clocked 0 w o ch := by
  simp only [at_midnight, Bool.or_eq_true, beq_iff_eq] at h
  rcases h with rfl | rfl
  · exact ⟨by simp, fun t ht => by cases ht⟩
  · exact ⟨by simp, fun t ht => by cases ht; rfl⟩

/-- A wrong password for Alice and one for nobody, a request for either, her used token and an
unknown one: each pair is answered alike. -/
theorem password_endpoints_discreet_for_alice :
    (∃ w₁ w₂ resp₁ resp₂,
      Prog.Exec (World.answer sample_crates) 0 (Sturdy sample_crates)
        (handlers.login sample_crates ⟨"alice@example.com", "guess"⟩ ⟨"10.0.0.1", "browser"⟩)
        (World.of with_alice) resp₁ w₁ ∧
      Prog.Exec (World.answer sample_crates) 0 (Sturdy sample_crates)
        (handlers.login sample_crates ⟨"alice@example.com", "guess"⟩ ⟨"10.0.0.1", "browser"⟩)
        (World.of []) resp₂ w₂ ∧ resp₁.status = 401 ∧ resp₁ = resp₂) ∧
    (∃ w₁ w₂ resp₁ resp₂,
      Prog.Exec (World.answer sample_crates) 0 (Clocked 0)
        (handlers.confirm_password_reset sample_crates ⟨token_of 1, "violet ladder engine cactus"⟩)
        (World.of with_alice) resp₁ w₁ ∧
      Prog.Exec (World.answer sample_crates) 0 (Clocked 0)
        (handlers.confirm_password_reset sample_crates ⟨token_of 2, "violet ladder engine cactus"⟩)
        (World.of []) resp₂ w₂ ∧ resp₁.status = 401 ∧ resp₁ = resp₂) := by
  have hall := @password_endpoints_discreet Passkey (List UInt8) sample_crates sample_jwt
    sample_webauthn sample_bcrypt_parses
  constructor
  · have hrun : ∃ w₁ w₂ resp₁ resp₂, Prog.exec? (World.answer sample_crates) 0 looking [.go]
          (handlers.login sample_crates ⟨"alice@example.com", "guess"⟩ ⟨"10.0.0.1", "browser"⟩)
          (World.of with_alice) = some (resp₁, w₁) ∧
        Prog.exec? (World.answer sample_crates) 0 looking [.go]
          (handlers.login sample_crates ⟨"alice@example.com", "guess"⟩ ⟨"10.0.0.1", "browser"⟩)
          (World.of []) = some (resp₂, w₂) ∧ resp₁.status = 401 ∧ resp₂.status = 401 :=
      ⟨_, _, _, _, rfl, rfl, rfl, rfl⟩
    obtain ⟨w₁, w₂, resp₁, resp₂, hrun₁, hrun₂, h₁, h₂⟩ := hrun
    have hexec₁ := (Prog.exec_of_exec? hrun₁).mono fun _ _ _ h => sturdy_of_looking h
    have hexec₂ := (Prog.exec_of_exec? hrun₂).mono fun _ _ _ h => sturdy_of_looking h
    exact ⟨w₁, w₂, resp₁, resp₂, hexec₁, hexec₂, h₁, hall.1 reached_with_alice reached_without hexec₁
      hexec₂ (by rw [h₁]; decide) (by rw [h₂]; decide)⟩
  · have hrun : ∃ w₁ w₂ resp₁ resp₂, Prog.exec? (World.answer sample_crates) 0 at_midnight
          [.time 0, .go, .go, .go]
          (handlers.confirm_password_reset sample_crates ⟨token_of 1, "violet ladder engine cactus"⟩)
          (World.of with_alice) = some (resp₁, w₁) ∧
        Prog.exec? (World.answer sample_crates) 0 at_midnight [.time 0, .go, .go, .go]
          (handlers.confirm_password_reset sample_crates ⟨token_of 2, "violet ladder engine cactus"⟩)
          (World.of []) = some (resp₂, w₂) ∧ resp₁.status = 401 :=
      ⟨_, _, _, _, rfl, rfl, rfl⟩
    obtain ⟨w₁, w₂, resp₁, resp₂, hrun₁, hrun₂, h₁⟩ := hrun
    have hexec₁ := (Prog.exec_of_exec? hrun₁).mono fun _ _ _ h => clocked_of_midnight h
    have hexec₂ := (Prog.exec_of_exec? hrun₂).mono fun _ _ _ h => clocked_of_midnight h
    have hused : Unacceptable sample_crates (token_of 1) 0 (World.of with_alice) := by
      intro p hp
      obtain rfl := List.mem_singleton.mp hp
      simp [Redeemable]
    have hunknown : Unacceptable sample_crates (token_of 2) 0 (World.of []) := by
      intro p hp
      cases hp
    exact ⟨w₁, w₂, resp₁, resp₂, hexec₁, hexec₂, h₁, hall.2.2.2 reached_with_alice reached_without
      hused hunknown hexec₁ hexec₂⟩

end Authnz
