/-
Whether the passkey login tells which usernames exist.

Two states that differ in one account without passkeys, and one request for its name,
answered in both.  `start` answers alike: a name nobody has and an account without
passkeys get one text.  `finish` does not: it looks the name up before it looks for a
ceremony, and says in other words that there is none.
-/
import Authnz.Proofs.Logins

namespace Authnz

open Basis

/-- In `w'` the account `u`, which has no passkey and no login in progress, is not there; nothing
else is different. -/
structure Hidden (u : User) (w w' : World) : Prop where
  settled : w.Settled 0
  account : ∃ d : Nat, w.places[d]? = some (some (.user u)) ∧ w'.places = w.places.set d none
  settled' : w'.Settled 0
  rest : w' = { w with db := w'.db }
  /-- The unique index on the names. -/
  only : ∀ v ∈ w.rows users, v.username = u.username → v = u
  once : ∀ d d' : Nat, w.places[d]? = some (some (.user u)) →
    w.places[d']? = some (some (.user u)) → d = d'
  bare : ∀ k ∈ w.rows passkey_credentials, k.user_id ≠ u.id
  idle : w.auth_store u.username = none

/-- The two requests of a passkey login, for an account's name with blanks around it. -/
inductive LoginFor {Reg Cred : Type} (name : String) : Request Reg Cred → Prop
  | start {username : String} (h : trim username = name) :
      LoginFor name (.passkey_login_start username)
  | finish {username : String} {credential : Cred} {params : SessionParams}
      (h : trim username = name) : LoginFor name (.passkey_login_finish username credential params)

section Answers

variable {Reg Cred : Type} {c : Crates} {wa : Webauthn Reg Cred} {w w' : World} {u : User}

theorem Hidden.present (h : Hidden u w w') : u ∈ w.sees 0 users := by
  obtain ⟨d, hd, -⟩ := h.account
  exact (mem_sees h.settled).mpr ⟨d, hd⟩

theorem Hidden.absent (h : Hidden u w w') {v : User} (hv : v ∈ w'.sees 0 users) :
    v ∈ w.rows users ∧ v ≠ u := by
  obtain ⟨d, hd, hplaces⟩ := h.account
  obtain ⟨d', hd'⟩ := (mem_sees h.settled').mp hv
  rw [hplaces] at hd'
  rcases get_set_cases hd' with ⟨-, hnone⟩ | ⟨hne, hold⟩
  · cases hnone
  · refine ⟨mem_rows_of_place (List.mem_of_getElem? hold), fun heq => hne ?_⟩
    rw [heq] at hold
    exact h.once d' d hold hd

theorem Hidden.unnamed (h : Hidden u w w') :
    (w'.sees 0 users).filter (fun v => v.username == u.username) = [] := by
  refine List.filter_eq_nil_iff.mpr fun v hv hname => ?_
  obtain ⟨hold, hne⟩ := h.absent hv
  exact hne (h.only v hold (by simpa using hname))

/-- What `start` says of a name that no account with a passkey has. -/
def start_refusal (name : String) : HttpResponse :=
  if name.isEmpty then ErrorResponse.bad_request "Username is required"
  else ErrorResponse.bad_request "No passkeys registered for this account"

theorem start_refuses {username : String}
    (hbare : ∀ v ∈ w.sees 0 users, v.username = trim username →
      ∀ k ∈ w.sees 0 passkey_credentials, k.user_id ≠ v.id) :
    Ends c 0 NoFail (passkey_login.start wa username) w fun _ resp =>
      resp = start_refusal (trim username) := by
  unfold passkey_login.start start_refusal
  generalize trim username = name at hbare ⊢
  dsimp only
  by_cases he : name.isEmpty = true
  · rw [if_pos he, if_pos he]
    exact ends_ret rfl
  rw [if_neg he, if_neg he]
  refine ends_run (endsE_bind (endsE_select ?_ fun _ hno => absurd rfl hno))
  cases hrows : (w.sees 0 users).filter fun v => v.username == name with
  | nil => exact endsE_throw (ends_ret rfl)
  | cons v rest =>
      obtain ⟨hv, hname⟩ := List.mem_filter.mp (hrows ▸ List.mem_cons_self)
      refine endsE_ret (ends_run (endsE_bind (endsE_select ?_ fun _ hno => absurd rfl hno)))
      have hnone : (w.sees 0 passkey_credentials).filter (fun k => k.user_id == v.id) = [] := by
        refine List.filter_eq_nil_iff.mpr fun k hk heq => ?_
        exact hbare v hv (by simpa using hname) k hk (by simpa using heq)
      rw [hnone]
      exact endsE_ret (ends_ret rfl)

/-- What `finish` says of a name nobody has, and of an account that has started no login. -/
def finish_refusal (known : Bool) : HttpResponse :=
  if known then
    ErrorResponse.bad_request
      "No authentication in progress for this account, or it expired. Please try again."
  else ErrorResponse.bad_request "No authentication in progress for this account"

theorem finish_refuses (c : Crates) (wa : Webauthn Reg Cred) {username : String} (credential : Cred)
    (params : SessionParams) (hidle : w.auth_store (trim username) = none) : ∃ w',
    Prog.Exec (World.answer c) 0 NoFail (passkey_login.finish c wa username credential params) w
      (finish_refusal ((w.sees 0 users).any fun v => v.username == trim username)) w' := by
  unfold passkey_login.finish
  generalize trim username = name at hidle ⊢
  dsimp only
  cases hrows : (w.sees 0 users).filter fun v => v.username == name with
  | nil =>
      have hfind : Prog.Exec (World.answer c) 0 NoFail (UserService.get_user_by_username name).run w
          (.error .InvalidCredentials) w := exec_lookup.mpr ⟨rfl, by rw [hrows]⟩
      have hany : ((w.sees 0 users).any fun v => v.username == name) = false := by
        rw [List.any_eq_false]
        exact List.filter_eq_nil_iff.mp hrows
      rw [hany]
      exact ⟨w, Prog.exec_bind.mpr ⟨_, w, hfind, .ret _ _⟩⟩
  | cons v rest =>
      have hfind : Prog.Exec (World.answer c) 0 NoFail (UserService.get_user_by_username name).run w
          (.ok v) w := exec_lookup.mpr ⟨rfl, by rw [hrows]⟩
      obtain ⟨hv, hname⟩ := List.mem_filter.mp (hrows ▸ List.mem_cons_self)
      have hany : ((w.sees 0 users).any fun v => v.username == name) = true :=
        List.any_eq_true.mpr ⟨v, hv, hname⟩
      have htake : Prog.Exec (World.answer c) 0 NoFail (PasskeyState.take_auth_state name) w
          none w := by
        refine Prog.exec_ask.mpr ⟨.go, w, _, fun h => (nomatch h), rfl, ?_⟩
        rw [hidle]
        exact .ret _ _
      rw [hany]
      exact ⟨w, Prog.exec_bind.mpr ⟨_, w, hfind, Prog.exec_bind.mpr ⟨_, w, htake, .ret _ _⟩⟩⟩

end Answers

/-- **A login tells nothing at its start, and whether the name exists at its end.** Of the two
requests exactly `start` is answered alike, in status and body, with and without the account. -/
theorem alike_iff_start {Reg Cred : Type} (c : Crates) (jwt_svc : JwtService)
    (wa : Webauthn Reg Cred) (u : User) (w w' : World) (h : Hidden u w w') (req : Request Reg Cred)
    (hreq : LoginFor u.username req) :
    (∀ resp resp' w₁ w₁', Prog.Exec (World.answer c) 0 NoFail (req.handler c jwt_svc wa) w resp w₁ →
        Prog.Exec (World.answer c) 0 NoFail (req.handler c jwt_svc wa) w' resp' w₁' →
        resp.status = resp'.status ∧ resp.body = resp'.body) ↔
      ∃ username, req = .passkey_login_start username := by
  cases hreq with
  | @start username hname =>
      refine iff_of_true (fun resp resp' w₁ w₁' hrun hrun' => ?_) ⟨username, rfl⟩
      have hbare : ∀ v ∈ w.sees 0 users, v.username = trim username →
          ∀ k ∈ w.sees 0 passkey_credentials, k.user_id ≠ v.id := by
        intro v hv hvname k hk
        rw [h.only v ((mem_sees_rows h.settled).mp hv) (hvname.trans hname)]
        exact h.bare k ((mem_sees_rows h.settled).mp hk)
      have hbare' : ∀ v ∈ w'.sees 0 users, v.username = trim username →
          ∀ k ∈ w'.sees 0 passkey_credentials, k.user_id ≠ v.id := by
        intro v hv hvname
        obtain ⟨hold, hne⟩ := h.absent hv
        exact absurd (h.only v hold (hvname.trans hname)) hne
      rw [start_refuses hbare resp w₁ hrun, start_refuses hbare' resp' w₁' hrun']
      exact ⟨rfl, rfl⟩
  | @finish username credential params hname =>
      refine iff_of_false (fun halike => ?_) fun ⟨_, heq⟩ => nomatch heq
      have hidle' : w'.auth_store (trim username) = none := by
        rw [h.rest, hname]
        exact h.idle
      obtain ⟨w₁, hrun⟩ := finish_refuses c wa credential params (hname ▸ h.idle)
      obtain ⟨w₁', hrun'⟩ := finish_refuses c wa credential params hidle'
      have hknown : ((w.sees 0 users).any fun v => v.username == trim username) = true :=
        List.any_eq_true.mpr ⟨u, h.present, by simp [hname]⟩
      have hunknown : ((w'.sees 0 users).any fun v => v.username == trim username) = false := by
        rw [List.any_eq_false, hname]
        exact List.filter_eq_nil_iff.mp h.unnamed
      rw [hknown] at hrun
      rw [hunknown] at hrun'
      have hdiffer : (finish_refusal true).body ≠ (finish_refusal false).body := by decide
      exact hdiffer (halike _ _ w₁ w₁' hrun hrun').2

/-! ### Alice has no passkeys -/

def world_with : World := World.of [.user (sample_user "old password")]

/-- The same, but that her account has been deleted. -/
def world_without : World := { world_with with db := [⟨[], none⟩] }

theorem hidden_alice : Hidden (sample_user "old password") world_with world_without := by
  refine ⟨settled_of 0 _, ⟨0, rfl, rfl⟩, rfl, rfl, ?_, ?_, ?_, rfl⟩
  · intro v hv _
    have hall : ∀ v ∈ world_with.rows users, v = sample_user "old password" := by decide
    exact hall v hv
  · intro d d' hd hd'
    have hlt := (List.getElem?_eq_some_iff.mp hd).1
    have hlt' := (List.getElem?_eq_some_iff.mp hd').1
    have hlen : world_with.places.length = 1 := rfl
    omega
  · intro k hk
    cases hk

/-- The start of Alice's login is answered alike with and without her account. -/
theorem alike_iff_start_for_alice :
    Hidden (sample_user "old password") world_with world_without ∧ ∀ resp resp' w₁ w₁',
      Prog.Exec (World.answer sample_crates) 0 NoFail
        (Request.handler sample_crates sample_jwt sample_webauthn (.passkey_login_start "alice"))
        world_with resp w₁ →
      Prog.Exec (World.answer sample_crates) 0 NoFail
        (Request.handler sample_crates sample_jwt sample_webauthn (.passkey_login_start "alice"))
        world_without resp' w₁' →
      resp.status = resp'.status ∧ resp.body = resp'.body :=
  ⟨hidden_alice, (alike_iff_start sample_crates sample_jwt sample_webauthn _ _ _ hidden_alice
    (.passkey_login_start "alice") (.start (by decide))).mpr ⟨"alice", rfl⟩⟩

/-- The end of a login, for the name of Alice's account. -/
def finish_for_alice : Request Passkey (List UInt8) :=
  .passkey_login_finish "alice" [1, 2, 3] ⟨"10.0.0.1", "curl"⟩

/-- **The end of a login tells whether Alice has an account.** -/
theorem finish_tells : Hidden (sample_user "old password") world_with world_without ∧
    LoginFor (sample_user "old password").username finish_for_alice ∧ ∃ resp resp' w₁ w₁',
    Prog.Exec (World.answer sample_crates) 0 NoFail
      (finish_for_alice.handler sample_crates sample_jwt sample_webauthn) world_with resp w₁ ∧
    Prog.Exec (World.answer sample_crates) 0 NoFail
      (finish_for_alice.handler sample_crates sample_jwt sample_webauthn) world_without resp' w₁' ∧
    resp.body ≠ resp'.body := by
  have hrun : ∃ w₁, Prog.exec? (World.answer sample_crates) 0 (fun _ _ ch => ch != .fail)
      [.go, .go] (finish_for_alice.handler sample_crates sample_jwt sample_webauthn) world_with =
      some (finish_refusal true, w₁) := ⟨_, rfl⟩
  have hrun' : ∃ w₁, Prog.exec? (World.answer sample_crates) 0 (fun _ _ ch => ch != .fail)
      [.go] (finish_for_alice.handler sample_crates sample_jwt sample_webauthn) world_without =
      some (finish_refusal false, w₁) := ⟨_, rfl⟩
  obtain ⟨w₁, hrun⟩ := hrun
  obtain ⟨w₁', hrun'⟩ := hrun'
  have hnofail : ∀ (s : World) (o : Op) (ch : Choice), (ch != .fail) = true → NoFail s o ch :=
    fun _ _ _ h => bne_iff_ne.mp h
  refine ⟨hidden_alice, .finish (by decide), _, _, w₁, w₁',
    (Prog.exec_of_exec? hrun).mono hnofail, (Prog.exec_of_exec? hrun').mono hnofail, ?_⟩
  decide

end Authnz
