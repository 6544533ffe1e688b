/-
How a username is spelled.

`register` stores a username as it is sent, and the password login looks it up as it is
sent; the passkey endpoints trim it first.  So an account can start a login with its
passkey exactly if its name has no white space around it (`logs_in_iff`): otherwise the
endpoints look for another name, or for none (`padded_name_locked_out`).
-/
import Authnz.Proofs.Copies

namespace Authnz

open Basis

/-! ### What holds of accounts and passkeys in every state -/

/-- The accounts have keys of their own, and every stored passkey can be read back. -/
structure Legible {Reg Cred : Type} (wa : Webauthn Reg Cred) (w : World) : Prop where
  settled : w.Settled 0
  accounts : Indexed users w
  passkeys : Stored (fun p => ∃ k, wa.from_str p.passkey_data = some k) w

section Legible

variable {Reg Cred : Type} {c : Crates} {jwt_svc : JwtService} {wa : Webauthn Reg Cred}
  {rows : List Record} {w w' : World} {admits : World → Op → Choice → Prop}

theorem Webauthn.Documented.reads (hwa : wa.Documented) :
    Written wa fun p => ∃ k, wa.from_str p.passkey_data = some k :=
  fun hdata _ => ⟨_, hwa.serde hdata⟩

theorem indexed_keeps {α : Type} {p : Handler α} (hp : p.Uses Upkeep) :
    Keeps c 0 admits (Indexed users) p :=
  keeps_of_uses hp fun _ _ _ _ _ ho _ hans h => h.upkeep ho hans

/-- **Every request keeps the accounts' keys.** -/
theorem Request.indexed_users (hset : w.Settled 0) (h : Indexed users w) (req : Request Reg Cred) :
    Ends c 0 admits (req.handler c jwt_svc wa) w fun w' _ => Indexed users w' := by
  by_cases hreq : ∃ payload, req = .confirm_password_reset payload
  · obtain ⟨payload, rfl⟩ := hreq
    refine ends_run (endsE_mono (confirm_password_reset_ends hset _) ?_ ?_)
    · intro w₁ user_id hpost
      obtain ⟨⟨salt, now, hplaces⟩, _, hset₁⟩ := hpost
      have hafter : Orderly c 0 Plain (after_reset user_id) := after_reset_orderly user_id
      exact indexed_keeps (uses_mono hafter.uses fun _ ho => ho.upkeep) w₁
        (h.restamped (hset₁.steady users) (row_of_reset hplaces))
    · intro w₁ e hpost
      obtain ⟨hplaces, hset₁⟩ := hpost
      refine ends_ret (h.same (hset₁.steady users) fun d => ?_)
      rw [row_of_places, row_of_places, hplaces]
  · exact indexed_keeps (req.upkeep jwt_svc wa fun payload heq => hreq ⟨payload, heq⟩) w h

/-- A deletion takes the passkeys of its account. -/
theorem passkeys_cascade (id : Uuid) (x : Option Record) :
    (Desk.rewrite (Cascades id) Relation.del x).bind passkey_credentials.prj =
      (x.bind passkey_credentials.prj).filter fun k => k.user_id != id := by
  cases x with
  | none => rfl
  | some r =>
      by_cases hr : Cascades id r = true
      · rw [Desk.rewrite_hit hr]
        cases r with
        | passkey_credential k =>
            have hid : k.user_id = id := beq_iff_eq.mp hr
            simp [Relation.del, passkey_credentials, Option.filter, hid]
        | _ => rfl
      · rw [Desk.rewrite_miss (by simpa using hr)]
        cases r with
        | passkey_credential k =>
            have hid : k.user_id ≠ id := fun heq => hr (beq_iff_eq.mpr heq)
            simp [passkey_credentials, Option.filter, hid]
        | _ => rfl

theorem Legible.of_db (h : Legible wa w) (hdb : w'.db = w.db) : Legible wa w' :=
  ⟨h.settled.of_db hdb, h.accounts.same (h.accounts.steady.of_db hdb) (row_of_db hdb),
    h.passkeys.same (h.passkeys.steady.of_db hdb) (row_of_db hdb)⟩

theorem Legible.delete (h : Legible wa w) (id : Uuid) :
    Ends c 0 admits (delete_user id) w fun w' _ => Legible wa w' := by
  refine ends_bind (ends_ask fun ch w' r _ hans => ends_ret ?_)
  obtain ⟨out, -, hdb, -⟩ := World.answer_sql hans
  rcases SqlOp.alone_write hdb with ⟨hdesk, -⟩ | ⟨-, ht, -⟩
  · have hset : w'.Settled 0 := by
      rw [World.Settled, hdesk]
      exact Desk.settled_pool _
    exact ⟨hset, h.accounts.filtered (hset.steady users)
      (row_of_pooled h.accounts.steady (rewrite_cascades id) rfl hdesk),
      h.passkeys.removed hset (row_of_pooled h.passkeys.steady (passkeys_cascade id) rfl hdesk)⟩
  · exact h.of_db ht

theorem Managed.legible {C : World → Time → Request Reg Cred → Prop} (hwa : wa.Documented)
    (hunique : UniqueAccounts rows) (hreads : ∀ (d : Nat) (p : PasskeyCredential),
      rows[d]? = some (.passkey_credential p) → ∃ k, wa.from_str p.passkey_data = some k)
    (h : Managed c jwt_svc wa C rows w) : Legible wa w := by
  induction h with
  | start =>
      exact ⟨settled_of 0 rows, .of hunique, (settled_of 0 rows).steady _,
        fun hp => hreads _ _ (row_of_iff.mp hp)⟩
  | @request w w' req t resp _ _ hrun ih =>
      have horderly : Orderly c 0 _ (req.handler c jwt_svc wa) := req.orderly jwt_svc wa
      exact ⟨horderly.settles ih.settled _ _ hrun, req.indexed_users ih.settled ih.accounts _ _ hrun,
        req.stored hwa.reads ih.settled ih.passkeys _ _ hrun⟩
  | @get_user_by_id w w' id r _ hrun ih =>
      refine ih.of_db (hrun.invariant (P := World.Quiet) (I := fun v => v.db = w.db)
        (uses_attempt (uses_ask trivial)) ?_ rfl)
      exact fun _ _ _ _ _ ho _ hans heq => (World.answer_quiet ho hans).trans heq
  | delete_user _ hrun ih => exact (ih.delete _ _ _ hrun).of_db (World.expire_db _ _)
  | expire _ e ih => exact ih.of_db (World.expire_db e _)

end Legible

/-! ### Logging in as oneself -/

/-- What `finish` does once it has found the account and looked for its ceremony. -/
def finish_as {Reg Cred : Type} (c : Crates) (wa : Webauthn Reg Cred) (user : User)
    (credential : Cred) (params : SessionParams) :
    Option PasskeyAuthentication → Handler HttpResponse
  | none =>
      return ErrorResponse.bad_request
        "No authentication in progress for this account, or it expired. Please try again."
  | some auth_state =>
      match wa.finish_passkey_authentication credential auth_state with
      | .error e => return ErrorResponse.bad_request ("WebAuthn error: " ++ e)
      | .ok result => do
          passkey_login.refresh_counter wa user.id result
          handlers.start_session c user params

/-- The ceremony of an account: a challenge for the credentials it has stored. -/
def CeremonyOf {Reg Cred : Type} (wa : Webauthn Reg Cred) (w : World) (u : User)
    (state : PasskeyAuthentication) : Prop :=
  ∃ credentials challenge, ((w.rows passkey_credentials).filter fun k => k.user_id == u.id).mapM
      (fun k => wa.from_str k.passkey_data) = some credentials ∧
    state = wa.start_passkey_authentication credentials challenge

/-- Given the username of `u` the passkey endpoints look up `u`: `start` answers with the ceremony of
`u` and files it, and `finish` takes what is filed there and goes on as `u`. -/
structure LogsIn {Reg Cred : Type} (c : Crates) (wa : Webauthn Reg Cred) (w : World) (u : User) :
    Prop where
  found : ∀ r w', Prog.Exec (World.answer c) 0 NoFail
    (UserService.get_user_by_username (trim u.username)).run w r w' → r = .ok u
  start : ∀ resp w', Prog.Exec (World.answer c) 0 NoFail (passkey_login.start wa u.username) w resp w' →
    ∃ state issued_at_secs, CeremonyOf wa w u state ∧ resp = .json 200 (.options state.challenge) ∧
      w' = { w with auth_store :=
        Function.update w.auth_store (trim u.username) (some ⟨issued_at_secs, state⟩) }
  finish : ∀ credential params resp w', Prog.Exec (World.answer c) 0 NoFail
      (passkey_login.finish c wa u.username credential params) w resp w' →
    ∃ state w₁, Prog.Exec (World.answer c) 0 NoFail (PasskeyState.take_auth_state (trim u.username)) w
        state w₁ ∧
      Prog.Exec (World.answer c) 0 NoFail (finish_as c wa u credential params state) w₁ resp w'

section LogsIn

variable {Reg Cred : Type} {c : Crates} {jwt_svc : JwtService} {wa : Webauthn Reg Cred}
  {rows : List Record} {w w' : World} {u : User} {name : String}

/-- The first account of the name is `u`. -/
theorem name_finds (hw : Legible wa w) {d : Nat} (hu : w.row users d = some u) :
    ∃ rest, ((w.sees 0 users).filter fun v => v.username == u.username) = u :: rest := by
  have hmem : u ∈ (w.sees 0 users).filter fun v => v.username == u.username :=
    List.mem_filter.mpr ⟨(mem_sees_rows hw.settled).mpr (mem_rows_iff.mpr ⟨d, hu⟩),
      beq_iff_eq.mpr rfl⟩
  cases hfilter : (w.sees 0 users).filter fun v => v.username == u.username with
  | nil =>
      rw [hfilter] at hmem
      cases hmem
  | cons v rest =>
      obtain ⟨hv, hname⟩ := List.mem_filter.mp (hfilter ▸ List.mem_cons_self)
      obtain ⟨d', hd'⟩ := mem_rows_iff.mp ((mem_sees_rows hw.settled).mp hv)
      have hclash : users.clash v u = true := by simp [users, beq_iff_eq.mp hname]
      rw [hw.accounts.eq_of_clash hd' hu hclash]
      exact ⟨rest, rfl⟩

/-- Every stored passkey can be read back, so a list of them can. -/
theorem reads_all {l : List PasskeyCredential}
    (h : ∀ p ∈ l, ∃ k, wa.from_str p.passkey_data = some k) :
    ∃ credentials, l.mapM (fun p => wa.from_str p.passkey_data) = some credentials ∧
      credentials.length = l.length := by
  induction l with
  | nil => exact ⟨[], rfl, rfl⟩
  | cons p l ih =>
      obtain ⟨k, hk⟩ := h p List.mem_cons_self
      obtain ⟨credentials, hl, hlen⟩ := ih fun q hq => h q (List.mem_cons_of_mem p hq)
      refine ⟨k :: credentials, ?_, congrArg (· + 1) hlen⟩
      rw [List.mapM_cons, hk, hl]
      rfl

theorem start_ceremony (hw : Legible wa w) {d : Nat} (hu : w.row users d = some u)
    (hne : u.username ≠ "") (hkey : ∃ d p, w.row passkey_credentials d = some p ∧ p.user_id = u.id)
    (hname : trim name = u.username) :
    Ends c 0 NoFail (passkey_login.start wa name) w fun w' resp =>
      ∃ state issued_at_secs, CeremonyOf wa w u state ∧ resp = .json 200 (.options state.challenge) ∧
        w' = { w with auth_store :=
          Function.update w.auth_store u.username (some ⟨issued_at_secs, state⟩) } := by
  unfold passkey_login.start
  rw [hname]
  dsimp only
  obtain ⟨rest, hfind⟩ := name_finds hw hu
  rw [if_neg (by simpa using hne)]
  refine ends_run (endsE_bind (endsE_select ?_ fun _ hno => absurd rfl hno))
  rw [hfind]
  refine endsE_ret (ends_run (endsE_bind (endsE_select ?_ fun _ hno => absurd rfl hno)))
  have hsees : (w.sees 0 passkey_credentials).filter (fun k => k.user_id == u.id) =
      (w.rows passkey_credentials).filter fun k => k.user_id == u.id := by
    rw [sees_eq_rows hw.settled]
  rw [hsees]
  have hreads : ∀ p ∈ (w.rows passkey_credentials).filter fun k => k.user_id == u.id,
      ∃ k, wa.from_str p.passkey_data = some k := by
    intro p hp
    obtain ⟨d, hd⟩ := mem_rows_iff.mp (List.mem_filter.mp hp).1
    exact hw.passkeys.each hd
  obtain ⟨credentials, hparse, hlen⟩ := reads_all hreads
  have hsome : credentials ≠ [] := by
    obtain ⟨d', p, hp, howner⟩ := hkey
    rintro rfl
    have hmem : p ∈ (w.rows passkey_credentials).filter fun k => k.user_id == u.id :=
      List.mem_filter.mpr ⟨mem_rows_iff.mpr ⟨d', hp⟩, beq_iff_eq.mpr howner⟩
    rw [List.length_nil] at hlen
    rw [List.eq_nil_of_length_eq_zero hlen.symm] at hmem
    cases hmem
  rw [hparse]
  refine endsE_ret ?_
  dsimp only
  rw [if_neg (by simpa using hsome)]
  refine ends_bind (ends_ask fun ch w₁ r hch hans => ?_)
  have hdraw : ∃ challenge, w₁ = w ∧ r = .ok challenge := by
    cases ch with
    | text challenge =>
        cases hans
        exact ⟨challenge, rfl, rfl⟩
    | fail => exact absurd rfl hch
    | _ => cases hans
  obtain ⟨challenge, rfl, rfl⟩ := hdraw
  refine ends_bind (ends_bind (ends_bind (ends_ask fun _ w₂ t _ hans => ?_)))
  obtain ⟨-, rfl⟩ := World.answer_now hans
  refine ends_ret (ends_bind (ends_ask fun ch w₃ _ hch hans => ?_))
  rcases World.doneOr_iff.mp hans with ⟨-, heq⟩ | ⟨rfl, -⟩
  · cases heq
    exact ends_ret (ends_ret ⟨_, _, ⟨credentials, challenge, hparse, rfl⟩, rfl, rfl⟩)
  · exact absurd rfl hch

theorem finish_goes_on (hw : Legible wa w) {d : Nat} (hu : w.row users d = some u)
    (hname : trim name = u.username) {credential : Cred} {params : SessionParams}
    {resp : HttpResponse}
    (h : Prog.Exec (World.answer c) 0 NoFail (passkey_login.finish c wa name credential params) w resp
      w') :
    ∃ state w₁, Prog.Exec (World.answer c) 0 NoFail (PasskeyState.take_auth_state u.username) w
        state w₁ ∧
      Prog.Exec (World.answer c) 0 NoFail (finish_as c wa u credential params state) w₁ resp w' := by
  unfold passkey_login.finish at h
  rw [hname] at h
  obtain ⟨r, w₁, hlookup, hrest⟩ := Prog.exec_bind.mp h
  obtain ⟨rest, hfind⟩ := name_finds hw hu
  obtain ⟨rfl, rfl⟩ := exec_lookup.mp hlookup
  rw [hfind] at hrest
  obtain ⟨state, w₂, htake, hgoes⟩ := Prog.exec_bind.mp hrest
  refine ⟨state, w₂, htake, ?_⟩
  cases state with
  | none => exact hgoes
  | some state => exact hgoes

/-- **An account can log in with its passkey exactly if its name is spelled without white space
around it**, and is not empty. -/
theorem logs_in_iff (hwa : wa.Documented) (hunique : UniqueAccounts rows)
    (hreads : ∀ (d : Nat) (p : PasskeyCredential), rows[d]? = some (.passkey_credential p) →
      ∃ k, wa.from_str p.passkey_data = some k)
    (h : Managed c jwt_svc wa (fun _ _ _ => True) rows w) {d : Nat} (hu : w.row users d = some u)
    (hkey : ∃ d p, w.row passkey_credentials d = some p ∧ p.user_id = u.id) :
    LogsIn c wa w u ↔ trim u.username = u.username ∧ u.username ≠ "" := by
  have hw := h.legible hwa hunique hreads
  constructor
  · intro hlogs
    have hfind := hlogs.found _ w (exec_lookup.mpr ⟨rfl, rfl⟩)
    have htrim : u.username = trim u.username := by
      cases hfilter : (w.sees 0 users).filter fun v => v.username == trim u.username with
      | nil =>
          rw [hfilter] at hfind
          cases hfind
      | cons v rest =>
          rw [hfilter] at hfind
          cases hfind
          obtain ⟨-, hname⟩ := List.mem_filter.mp (hfilter ▸ List.mem_cons_self)
          exact beq_iff_eq.mp hname
    refine ⟨htrim.symm, fun hempty => ?_⟩
    have hrefused : Prog.Exec (World.answer c) 0 NoFail (passkey_login.start wa u.username) w
        (ErrorResponse.bad_request "Username is required") w := by
      unfold passkey_login.start
      rw [← htrim, hempty]
      exact .ret _ _
    obtain ⟨state, t, -, hresp, -⟩ := hlogs.start _ _ hrefused
    cases hresp
  · intro hpost
    obtain ⟨htrim, hne⟩ := hpost
    refine ⟨fun r w' hrun => ?_, fun resp w' hrun => ?_, fun credential params resp w' hrun => ?_⟩
    · rw [htrim] at hrun
      obtain ⟨rest, hfind⟩ := name_finds hw hu
      obtain ⟨-, rfl⟩ := exec_lookup.mp hrun
      rw [hfind]
    · rw [htrim]
      exact start_ceremony hw hu hne hkey htrim resp w' hrun
    · rw [htrim]
      exact finish_goes_on hw hu htrim hrun

end LogsIn

/-! ### Bob, and Bob behind a blank -/

def bobs_password : String := "violet ladder engine cactus"

/-- Bob, as the middleware lets him in. -/
def as_bob (name : String) : Identity := ⟨8, name, "bob@example.com"⟩

/-- Bob registers under this name, signs in with his password and registers a passkey. -/
theorem bob_enrolls {name : String} {w₁ w₂ w₃ w₄ : World} {r₁ r₂ r₃ r₄ : HttpResponse}
    (h₁ : Prog.exec? (World.answer sample_crates) 0 (fun _ _ _ => true) [.number 0, .time 60, .key 8]
      (handlers.register sample_crates ⟨name, "bob@example.com", bobs_password⟩) (World.of []) =
        some (r₁, w₁))
    (h₂ : Prog.exec? (World.answer sample_crates) 0 (fun _ _ _ => true)
      [.go, .time 60, .time 60, .key 6] (handlers.username_login sample_crates
        ⟨name, bobs_password⟩ ⟨"10.0.0.2", "curl"⟩) w₁ = some (r₂, w₂))
    (h₃ : Prog.exec? (World.answer sample_crates) 0 (fun _ _ _ => true)
      [.identity (as_bob name), .go, .go, .text "challenge", .time 60, .go]
      (session_middleware (uuid_text 6) fun session =>
        passkey_register.start sample_crates sample_webauthn session) w₂ = some (r₃, w₃))
    (h₄ : Prog.exec? (World.answer sample_crates) 0 (fun _ _ _ => true)
      [.identity (as_bob name), .go, .go, .time 60, .time 60, .key 9]
      (session_middleware (uuid_text 6) fun session =>
        passkey_register.finish sample_crates sample_webauthn session none
          ⟨[1, 2], 0, "key"⟩) w₃ = some (r₄, w₄)) :
    Managed sample_crates sample_jwt sample_webauthn (fun _ _ _ => True) [] w₄ := by
  let register : Request Passkey (List UInt8) :=
    .register ⟨name, "bob@example.com", bobs_password⟩
  let login : Request Passkey (List UInt8) :=
    .username_login ⟨name, bobs_password⟩ ⟨"10.0.0.2", "curl"⟩
  let start : Request Passkey (List UInt8) := .passkey_register_start (uuid_text 6)
  let finish : Request Passkey (List UInt8) :=
    .passkey_register_finish (uuid_text 6) none ⟨[1, 2], 0, "key"⟩
  have hexec₁ : Prog.Exec (World.answer sample_crates) 0 (Punctual register 60)
      (register.handler sample_crates sample_jwt sample_webauthn) _ r₁ w₁ :=
    (Prog.exec_of_exec? h₁).mono fun _ _ _ _ => trivial
  have hexec₂ : Prog.Exec (World.answer sample_crates) 0 (Punctual login 60)
      (login.handler sample_crates sample_jwt sample_webauthn) _ r₂ w₂ :=
    (Prog.exec_of_exec? h₂).mono fun _ _ _ _ => trivial
  have hexec₃ : Prog.Exec (World.answer sample_crates) 0 (Punctual start 60)
      (start.handler sample_crates sample_jwt sample_webauthn) _ r₃ w₃ :=
    (Prog.exec_of_exec? h₃).mono fun _ _ _ _ => trivial
  have hexec₄ : Prog.Exec (World.answer sample_crates) 0 (Punctual finish 60)
      (finish.handler sample_crates sample_jwt sample_webauthn) _ r₄ w₄ :=
    (Prog.exec_of_exec? h₄).mono fun _ _ _ _ => trivial
  exact (((Managed.start.request trivial hexec₁).request trivial hexec₂).request trivial
    hexec₃).request trivial hexec₄

/-- Bob can start a login with his passkey. -/
theorem logs_in_iff_for_bob : ∃ w u, Managed sample_crates sample_jwt sample_webauthn
    (fun _ _ _ => True) [] w ∧ w.row users 0 = some u ∧ u.username = "bob" ∧
      LogsIn sample_crates sample_webauthn w u := by
  have hruns : ∃ w₁ r₁, Prog.exec? (World.answer sample_crates) 0 (fun _ _ _ => true)
      [.number 0, .time 60, .key 8] (handlers.register sample_crates
        ⟨"bob", "bob@example.com", bobs_password⟩) (World.of []) = some (r₁, w₁) ∧
      ∃ w₂ r₂, Prog.exec? (World.answer sample_crates) 0 (fun _ _ _ => true)
        [.go, .time 60, .time 60, .key 6] (handlers.username_login sample_crates
          ⟨"bob", bobs_password⟩ ⟨"10.0.0.2", "curl"⟩) w₁ = some (r₂, w₂) ∧
      ∃ w₃ r₃, Prog.exec? (World.answer sample_crates) 0 (fun _ _ _ => true)
        [.identity (as_bob "bob"), .go, .go, .text "challenge", .time 60, .go]
        (session_middleware (uuid_text 6) fun session =>
          passkey_register.start sample_crates sample_webauthn session) w₂ = some (r₃, w₃) ∧
      ∃ w₄ r₄, Prog.exec? (World.answer sample_crates) 0 (fun _ _ _ => true)
        [.identity (as_bob "bob"), .go, .go, .time 60, .time 60, .key 9]
        (session_middleware (uuid_text 6) fun session =>
          passkey_register.finish sample_crates sample_webauthn session none
            ⟨[1, 2], 0, "key"⟩) w₃ = some (r₄, w₄) ∧
      ∃ u p, w₄.row users 0 = some u ∧ w₄.row passkey_credentials 2 = some p ∧
        u.username = "bob" ∧ p.user_id = u.id :=
    ⟨_, _, rfl, _, _, rfl, _, _, rfl, _, _, rfl, _, _, rfl, rfl, rfl, rfl⟩
  obtain ⟨w₁, r₁, h₁, w₂, r₂, h₂, w₃, r₃, h₃, w₄, r₄, h₄, u, p, hu, hp, hname, howner⟩ := hruns
  have hrun := bob_enrolls h₁ h₂ h₃ h₄
  refine ⟨w₄, u, hrun, hu, hname, ?_⟩
  have hunique : UniqueAccounts [] := fun _ _ _ _ h => nomatch h
  refine (logs_in_iff sample_webauthn_documented hunique (fun _ _ h => nomatch h) hrun hu
    ⟨2, p, hp, howner⟩).mpr ?_
  rw [hname]
  exact ⟨by decide, by decide⟩

/-- Behind a blank he cannot: his name passes the validation, and then no login finds it. -/
theorem padded_name_locked_out : ∃ w u p, Managed sample_crates sample_jwt sample_webauthn
    (fun _ _ _ => True) [] w ∧ w.row users 0 = some u ∧ u.username = " bob" ∧
      w.row passkey_credentials 2 = some p ∧ p.user_id = u.id ∧
        ¬ LogsIn sample_crates sample_webauthn w u := by
  have hruns : ∃ w₁ r₁, Prog.exec? (World.answer sample_crates) 0 (fun _ _ _ => true)
      [.number 0, .time 60, .key 8] (handlers.register sample_crates
        ⟨" bob", "bob@example.com", bobs_password⟩) (World.of []) = some (r₁, w₁) ∧
      ∃ w₂ r₂, Prog.exec? (World.answer sample_crates) 0 (fun _ _ _ => true)
        [.go, .time 60, .time 60, .key 6] (handlers.username_login sample_crates
          ⟨" bob", bobs_password⟩ ⟨"10.0.0.2", "curl"⟩) w₁ = some (r₂, w₂) ∧
      ∃ w₃ r₃, Prog.exec? (World.answer sample_crates) 0 (fun _ _ _ => true)
        [.identity (as_bob " bob"), .go, .go, .text "challenge", .time 60, .go]
        (session_middleware (uuid_text 6) fun session =>
          passkey_register.start sample_crates sample_webauthn session) w₂ = some (r₃, w₃) ∧
      ∃ w₄ r₄, Prog.exec? (World.answer sample_crates) 0 (fun _ _ _ => true)
        [.identity (as_bob " bob"), .go, .go, .time 60, .time 60, .key 9]
        (session_middleware (uuid_text 6) fun session =>
          passkey_register.finish sample_crates sample_webauthn session none
            ⟨[1, 2], 0, "key"⟩) w₃ = some (r₄, w₄) ∧
      ∃ u p, w₄.row users 0 = some u ∧ w₄.row passkey_credentials 2 = some p ∧
        u.username = " bob" ∧ p.user_id = u.id ∧
        ∃ w₅ e, Prog.exec? (World.answer sample_crates) 0 (fun _ _ ch => ch != .fail) [.go]
          (UserService.get_user_by_username (trim u.username)).run w₄ = some (.error e, w₅) :=
    ⟨_, _, rfl, _, _, rfl, _, _, rfl, _, _, rfl, _, _, rfl, rfl, rfl, rfl, _, _, rfl⟩
  obtain ⟨w₁, r₁, h₁, w₂, r₂, h₂, w₃, r₃, h₃, w₄, r₄, h₄, u, p, hu, hp, hname, howner, w₅, e, h₅⟩ :=
    hruns
  have hexec₅ : Prog.Exec (World.answer sample_crates) 0 NoFail _ w₄ _ w₅ :=
    (Prog.exec_of_exec? h₅).mono fun _ _ ch h => by simpa [NoFail] using h
  refine ⟨w₄, u, p, bob_enrolls h₁ h₂ h₃ h₄, hu, hname, hp, howner, fun hlogs => ?_⟩
  have hfound := hlogs.found _ w₅ hexec₅
  cases hfound

end Authnz
