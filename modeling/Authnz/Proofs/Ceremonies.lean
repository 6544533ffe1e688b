/-
Logging in with a passkey.

A login ceremony is stored under a username and lists the passkeys it may be finished
with.  As long as no passkey is removed that a stored ceremony lists, and no account
takes a name under which another account's ceremony is stored, the two keep together:
the passkeys of a ceremony belong to one account, and whoever has the name is that
account.  A login that finishes is then one with a passkey of the account it is for.
-/
import Authnz.Proofs.Passkeys

namespace Authnz

open Basis

/-- The account and the username of a row of `users`. -/
def account_name (r : Record) : Option (Uuid × String) :=
  (users.prj r).map fun u => (u.id, u.username)

/-- The owner and the credential of a row of `passkey_credentials`. -/
def passkey_owner (r : Record) : Option (Uuid × String) :=
  (passkey_credentials.prj r).map fun p => (p.user_id, p.credential_id)

/-- The passkey is one of the account's. -/
def World.Registered (w : World) (user_id : Uuid) (k : Passkey) : Prop :=
  ∃ p ∈ w.rows passkey_credentials, p.user_id = user_id ∧ p.credential_id = credential_id_b64 k

section Looks

variable {w w' : World}

theorem look_account_name {d : Nat} {id : Uuid} {name : String} :
    w.look account_name d = some (id, name) ↔
      ∃ u, w.row users d = some u ∧ u.id = id ∧ u.username = name := by
  unfold account_name
  rw [look_map, Option.map_eq_some_iff]
  simp only [Prod.mk.injEq]

theorem registered_iff {user_id : Uuid} {k : Passkey} : w.Registered user_id k ↔
    ∃ d, w.look passkey_owner d = some (user_id, credential_id_b64 k) := by
  unfold World.Registered passkey_owner
  constructor
  · intro hpost
    obtain ⟨p, hp, howner, hkey⟩ := hpost
    obtain ⟨d, hd⟩ := mem_rows_iff.mp hp
    exact ⟨d, by rw [look_map, hd, Option.map_some, howner, hkey]⟩
  · intro hpost
    obtain ⟨d, hd⟩ := hpost
    rw [look_map] at hd
    obtain ⟨p, hp, heq⟩ := Option.map_eq_some_iff.mp hd
    obtain ⟨howner, hkey⟩ := Prod.mk.inj heq
    exact ⟨p, mem_rows_iff.mpr ⟨d, hp⟩, howner, hkey⟩

theorem World.Registered.of_same {user_id : Uuid} {k : Passkey} (h : w.Registered user_id k)
    (hsame : ∀ d, w'.look passkey_owner d = w.look passkey_owner d) : w'.Registered user_id k := by
  obtain ⟨d, hd⟩ := registered_iff.mp h
  exact registered_iff.mpr ⟨d, by rw [hsame, hd]⟩

end Looks

/-- Operations outside the ceremonies leave their store. -/
theorem answer_auth_store {c : Crates} {me : Nat} {o : Op} {ch : Choice} {w w' : World}
    {r : o.Reply} (ho : ¬ Ceremony o) (h : World.answer c me o ch w = some (w', r)) :
    w'.auth_store = w.auth_store := by
  cases o with
  | sql q =>
      obtain ⟨-, -, -, hw⟩ := World.answer_sql h
      rw [hw]
  | update id dto =>
      rcases World.answer_update h with ⟨rfl, -⟩ | ⟨-, -, -, -, -, hw⟩
      · rfl
      · rw [hw]
  | retrieve id => rw [(World.answer_retrieve h).1]
  | tokens_insert k e => rw [World.answer_tokens_insert h]
  | links_insert k e => rw [World.answer_links_insert h]
  | tokens_remove k => rw [(World.answer_tokens_remove h).1]
  | links_remove k => rw [(World.answer_links_remove h).1]
  | reg_set k s | reg_delete k =>
      rcases World.doneOr_iff.mp h with ⟨-, heq⟩ | ⟨-, heq⟩ <;> cases heq <;> rfl
  | auth_set k s | auth_delete k => exact absurd trivial ho
  | _ => rw [World.answer_idle h trivial]

/-! ### Ceremonies and accounts -/

section Bound

variable {Reg Cred : Type} {c : Crates} {wa : Webauthn Reg Cred} {w w' : World}

/-- What keeps a stored ceremony with its account. -/
structure Bound (wa : Webauthn Reg Cred) (w : World) : Prop where
  filed : Filed wa w
  names_level : w.Level 0 account_name
  /-- A username names one account. -/
  unique : ∀ {d d' : Nat} {i i' : Uuid} {name : String},
    w.look account_name d = some (i, name) → w.look account_name d' = some (i', name) → i = i'
  /-- The credentials of a ceremony are one account's, and the name is no other's. -/
  ceremonies : ∀ {name : String} {timed : TimedAuthState}, w.auth_store name = some timed →
    ∃ owner, (∀ k ∈ timed.state.credentials, w.Registered owner k) ∧
      ∀ {d : Nat} {i : Uuid}, w.look account_name d = some (i, name) → i = owner

/-- Names and owners stay, and no ceremony is new. -/
theorem Bound.same (h : Bound wa w) (hfiled : Filed wa w') (hlevel : w'.Level 0 account_name)
    (hnames : ∀ d, w'.look account_name d = w.look account_name d)
    (howners : ∀ d, w'.look passkey_owner d = w.look passkey_owner d)
    (hstore : ∀ name timed, w'.auth_store name = some timed → w.auth_store name = some timed) :
    Bound wa w' := by
  refine ⟨hfiled, hlevel, fun {d d' i i' name} hd hd' => ?_, fun {name timed} hstored => ?_⟩
  · rw [hnames] at hd hd'
    exact h.unique hd hd'
  · obtain ⟨owner, hcreds, hname⟩ := h.ceremonies (hstore _ _ hstored)
    refine ⟨owner, fun k hk => (hcreds k hk).of_same howners, fun {d i} hd => ?_⟩
    rw [hnames] at hd
    exact hname hd

theorem owners_same (hrows : ∀ d, w'.row passkey_credentials d = w.row passkey_credentials d)
    (d : Nat) : w'.look passkey_owner d = w.look passkey_owner d := by
  unfold passkey_owner
  rw [look_map, look_map, hrows]

theorem names_same (hrows : ∀ d, w'.row users d = w.row users d) (d : Nat) :
    w'.look account_name d = w.look account_name d := by
  unfold account_name
  rw [look_map, look_map, hrows]

/-- The operation touches no name, no passkey and no ceremony. -/
def Aside (o : Op) : Prop :=
  ¬ Ceremony o ∧ ∀ q, o.statement = some q → Apart account_name q ∧ Apart passkey_credentials.prj q

theorem Bound.aside {o : Op} (ho : Aside o) {ch : Choice} {r : o.Reply} (h : Bound wa w)
    (hans : World.answer c 0 o ch w = some (w', r)) : Bound wa w' := by
  obtain ⟨hlevel, hnames⟩ := Apart.shown (fun q hq => (ho.2 q hq).1) hans h.names_level
  obtain ⟨hsteady, hrows⟩ := Apart.frame (fun q hq => (ho.2 q hq).2) hans h.filed.steady
  refine h.same (h.filed.same hsteady hrows) hlevel hnames (owners_same hrows)
    fun name timed hstored => ?_
  rwa [answer_auth_store ho.1 hans] at hstored

theorem names_elsewhere : Elsewhere account_name :=
  ⟨fun _ => rfl, fun _ => rfl, fun _ => rfl, fun _ => rfl⟩

theorem Plain.aside {o : Op} (h : Plain o) : Aside o := by
  refine ⟨fun hc => ?_, fun q hq => ⟨h.apart names_elsewhere hq, h.apart passkeys_elsewhere hq⟩⟩
  cases h with
  | quiet _ hn => exact hn hc
  | _ => exact hc

/-- The requests that have to do with names, passkeys or ceremonies. -/
def Request.touches : Request Reg Cred → Prop
  | .register _ => True
  | .update_user _ _ _ => True
  | .passkey_register_finish _ _ _ => True
  | .passkey_remove _ _ => True
  | .passkey_login_start _ => True
  | .passkey_login_finish _ _ _ => True
  | _ => False

theorem Request.aside {req : Request Reg Cred} (hreq : ¬ req.touches) {o : Op}
    (h : Plain o ∨ req.special o) : Aside o := by
  rcases h with h | h
  · exact h.aside
  have hashes : HashWrite o → Aside o := by
    intro hw
    refine ⟨fun hc => by cases hw <;> exact hc, fun q hq => ?_⟩
    cases hw with
    | change id hash | reset id hash now =>
        cases hq
        exact ⟨apart_set_of (U := users) fun _ => rfl, apart_set (U := users) fun _ => rfl⟩
  have tokens : TokenInsert o → Aside o := by
    rintro ⟨ex, t, rfl⟩
    refine ⟨fun hc => hc, fun q hq => ?_⟩
    cases hq
    exact ⟨apart_insert (U := refresh_tokens) fun _ => rfl,
      apart_insert (U := refresh_tokens) fun _ => rfl⟩
  have confirms : EmailConfirm o → Aside o := by
    rintro ⟨id, rfl⟩
    refine ⟨fun hc => hc, fun q hq => ?_⟩
    cases hq
    exact ⟨apart_set_of (U := users) fun _ => rfl, apart_set (U := users) fun _ => rfl⟩
  cases req with
  | confirm_password_reset payload | change_password cookie req params => exact hashes h
  | refresh cmd | jwt cookie => exact tokens h
  | confirm link params | confirm_token token nonce params => exact confirms h
  | register | update_user | passkey_register_finish | passkey_remove => exact (hreq trivial).elim
  | passkey_login_start | passkey_login_finish => exact (hreq trivial).elim
  | _ => exact h.elim

/-! ### The services of a passkey login -/

variable {admits : World → Op → Choice → Prop}

/-- The credentials an account logs in with are registered to it. -/
theorem Bound.registered (h : Bound wa w) {user_id : Uuid} {k : Passkey} {p : PasskeyCredential}
    (hp : p ∈ w.sees 0 passkey_credentials) (howner : p.user_id = user_id)
    (hdata : wa.from_str p.passkey_data = some k) : w.Registered user_id k := by
  obtain ⟨d, hd⟩ := mem_sees_iff.mp hp
  rw [h.filed.steady d] at hd
  exact ⟨p, mem_rows_iff.mpr ⟨d, hd⟩, howner, h.filed.coherent hd hdata⟩

theorem take_auth_state_ends {me : Nat} (username : String) :
    Ends c me admits (PasskeyState.take_auth_state username) w fun w' r =>
      w'.db = w.db ∧
        (∀ name timed, w'.auth_store name = some timed → w.auth_store name = some timed) ∧
        ∀ state, r = some state → ∃ timed, w.auth_store username = some timed ∧
          timed.state = state := by
  refine ends_bind (ends_ask fun ch w₁ got _ hans => ?_)
  change Except Failed (Option TimedAuthState) at got
  rcases World.doneOr_iff.mp hans with ⟨-, heq⟩ | ⟨-, heq⟩
  · obtain ⟨rfl, rfl⟩ := Prod.mk.inj heq
    cases hstored : w₁.auth_store username with
    | none => exact ends_ret ⟨rfl, fun _ _ h => h, fun _ h => nomatch h⟩
    | some timed =>
        refine ends_bind (ends_ask fun ch₂ w₂ u _ hdel => ?_)
        refine ends_bind (ends_bind (ends_now fun t => ends_ret (ends_ret ?_)))
        rcases World.doneOr_iff.mp hdel with ⟨-, heq⟩ | ⟨-, heq⟩
        · obtain ⟨rfl, -⟩ := Prod.mk.inj heq
          refine ⟨rfl, fun name timed' h => ?_, fun state h => ?_⟩
          · by_cases hname : name = username
            · subst hname
              exact absurd (h.symm.trans (Function.update_self ..)) (by simp)
            · exact (Function.update_of_ne hname _ _).symm.trans h
          · exact ⟨timed, rfl, Option.some.inj (Option.ite_none_left_eq_some.mp h).2⟩
        · obtain ⟨rfl, -⟩ := Prod.mk.inj heq
          exact ⟨rfl, fun _ _ h => h, fun state h =>
            ⟨timed, rfl, Option.some.inj (Option.ite_none_left_eq_some.mp h).2⟩⟩
  · obtain ⟨rfl, rfl⟩ := Prod.mk.inj heq
    exact ends_ret ⟨rfl, fun _ _ h => h, fun _ h => nomatch h⟩

/-- Writing a counter back: the rows keep their owners and their credentials. -/
structure Recounted (wa : Webauthn Reg Cred) (w w' : World) : Prop where
  bound : Bound wa w'
  settled : w'.Settled 0
  owners : ∀ d, w'.look passkey_owner d = w.look passkey_owner d
  sessions : ∀ d, w'.row sessions d = w.row sessions d

theorem Bound.rewritten (hwa : wa.Documented) (hset : w.Settled 0) (hb : Bound wa w) {k : Passkey}
    (hre : Rewritten wa 0 k w w') : Recounted wa w w' := by
  have hfiled := hb.filed.rewritten hwa hre
  cases hre with
  | same heq =>
      subst heq
      exact ⟨hb, hset, fun _ => rfl, fun _ => rfl⟩
  | @written data now hdata hplaces hset' hw =>
      have howners : ∀ d, w'.look passkey_owner d = w.look passkey_owner d := by
        intro d
        unfold passkey_owner
        rw [look_map, look_map, row_of_update hplaces, Option.map_map]
        refine congrFun (congrArg Option.map (funext fun p => ?_)) _
        by_cases hp : (p.credential_id == credential_id_b64 k) = true
        · simp only [Function.comp_apply, if_pos hp, PasskeyCredential.recounted]
        · simp only [Function.comp_apply, if_neg hp]
      have hother : ∀ {β : Type} {U : Relation β}, (∀ p, U.prj (.passkey_credential p) = none) →
          ∀ d, w'.row U d = w.row U d := fun hU =>
        row_of_other (U := passkey_credentials) hU
          (fun p r hr => by rw [Relation.set_inj] at hr; cases hr; exact hU _) hplaces
      exact ⟨hb.same hfiled (hset'.level _) (names_same (hother fun _ => rfl)) howners
        fun name timed h => by rwa [hw] at h, hset', howners, hother fun _ => rfl⟩

/-- A login that starts a session is with a passkey of the account the session is for: the
assertion accepted against the stored ceremony is by a credential registered to it. -/
def SoundLogin (wa : Webauthn Reg Cred) (w w' : World) (query_username : String)
    (credential : Cred) : Prop :=
  ∀ d s, w.row sessions d = none → w'.row sessions d = some s →
    ∃ timed result, w.auth_store (trim query_username) = some timed ∧
      wa.finish_passkey_authentication credential timed.state = .ok result ∧
      ∃ p ∈ w'.rows passkey_credentials, p.user_id = s.sub ∧
        p.credential_id = base64url result.cred_id

theorem finish_ends (hwa : wa.Documented) (hset : w.Settled 0) (hb : Bound wa w)
    (query_username : String) (credential : Cred) (params : SessionParams) :
    Ends c 0 admits (passkey_login.finish c wa query_username credential params) w
      fun w' _ => Bound wa w' ∧ SoundLogin wa w w' query_username credential := by
  -- where no session is added there is nothing to show
  have hnone : ∀ {w' : World}, Bound wa w' → (∀ d, w'.row sessions d = w.row sessions d) →
      Bound wa w' ∧ SoundLogin wa w w' query_username credential := by
    intro w' hb' hrows
    refine ⟨hb', fun d s hd hd' => ?_⟩
    rw [hrows, hd] at hd'
    cases hd'
  unfold passkey_login.finish
  refine ends_run (endsE_mono (get_user_by_username_ends _) ?_ ?_)
  · intro w₀ user hpost
    obtain ⟨hw₀, hsees, hname⟩ := hpost
    subst hw₀
    refine ends_bind (ends_mono (take_auth_state_ends _) ?_)
    intro w₁ got hpost
    obtain ⟨hdb, hstore, hgot⟩ := hpost
    have hset₁ : w₁.Settled 0 := by
      rw [World.Settled, hdb]
      exact hset
    have hlook : ∀ {β : Type} (g : Record → Option β) d, w₁.look g d = w₀.look g d := by
      intro β g d
      rw [World.look, World.look, hdb]
    have hb₁ : Bound wa w₁ := hb.same (hb.filed.same (hset₁.steady _)
      (hlook passkey_credentials.prj)) (hset₁.level _) (hlook _) (hlook _) hstore
    cases got with
    | none => exact ends_ret (hnone hb₁ (hlook sessions.prj))
    | some auth_state =>
        dsimp only
        cases hresult : wa.finish_passkey_authentication credential auth_state with
        | error e => exact ends_ret (hnone hb₁ (hlook sessions.prj))
        | ok result =>
            obtain ⟨timed, hstored, rfl⟩ := hgot _ rfl
            obtain ⟨k, hk, hid⟩ := hwa.finish hresult
            obtain ⟨owner, hcreds, howner⟩ := hb.ceremonies hstored
            have huser : user.id = owner := by
              obtain ⟨d, hd⟩ := mem_sees_iff.mp hsees
              rw [hset.steady users d] at hd
              exact howner (look_account_name.mpr ⟨user, hd, rfl, hname⟩)
            have hregistered : w₁.Registered user.id k :=
              huser ▸ (hcreds k hk).of_same (hlook _)
            refine ends_bind (ends_mono (refresh_counter_ends hset₁ _ _) ?_)
            intro w₂ _ hcount
            have hre : Recounted wa w₁ w₂ := by
              rcases hcount with heq | ⟨-, -, -, k', -, -, -, -, hre⟩
              · subst heq
                exact ⟨hb₁, hset₁, fun _ => rfl, fun _ => rfl⟩
              · exact hb₁.rewritten hwa hset₁ hre
            have hsess : ∀ d, w₂.row sessions d = w₀.row sessions d := fun d =>
              (hre.sessions d).trans (hlook sessions.prj d)
            refine ends_bind (ends_bind (ends_now fun now => ends_ret ?_))
            refine ends_run (endsE_mono (issue_session_ends hre.settled _ _) ?_ ?_)
            · intro w₃ sess_id hpost
              obtain ⟨s, _, hsub, _, hplaces, hset₃, hw₃⟩ := hpost
              have hstore₃ : w₃.auth_store = w₂.auth_store := by rw [hw₃]
              have hfiled₃ : Filed wa w₃ := hre.bound.filed.same (hset₃.steady _)
                (look_of_insert_hidden (g := passkey_credentials.prj) hplaces rfl)
              have hb₃ : Bound wa w₃ := hre.bound.same hfiled₃ (hset₃.level _)
                (look_of_insert_hidden hplaces rfl) (look_of_insert_hidden hplaces rfl)
                fun name timed h => by rwa [hstore₃] at h
              refine ends_ret ⟨hb₃, fun d s' hd hd' => ?_⟩
              have hs' : s' = s := by
                rw [row_of_insert hplaces] at hd'
                by_cases hnew : d = w₂.db.length
                · rw [if_pos hnew] at hd'
                  exact (Option.some.inj hd').symm
                · rw [if_neg hnew, hsess, hd] at hd'
                  cases hd'
              have howners : ∀ d, w₃.look passkey_owner d = w₂.look passkey_owner d :=
                look_of_insert_hidden hplaces rfl
              obtain ⟨p, hp, hpowner, hpkey⟩ := (hregistered.of_same hre.owners).of_same howners
              refine ⟨timed, result, hstored, hresult, p, hp, ?_, ?_⟩
              · rw [hs', hsub, hpowner]
                rfl
              · rw [hpkey, credential_id_b64, hid]
            · intro w₃ e hw₃
              subst hw₃
              exact ends_ret (hnone hre.bound hsess)
  · intro w' e hw
    subst hw
    exact ends_ret (hnone hb fun _ => rfl)

/-! ### The other requests -/

theorem auth_store_kept {α : Type} {P : Op → Prop} {p : Handler α} (hp : p.Uses P)
    (hP : ∀ o, P o → ¬ Ceremony o) {a : α}
    (hrun : Prog.Exec (World.answer c) 0 admits p w a w') : w'.auth_store = w.auth_store :=
  hrun.invariant (I := fun w' : World => w'.auth_store = w.auth_store) hp
    (fun _ _ _ _ _ ho _ hans heq => (answer_auth_store (hP _ ho) hans).trans heq) rfl

/-- A new account, under a name no ceremony is stored for. -/
theorem Bound.added (h : Bound wa w) (hset : w'.Settled 0) {u : User}
    (hplaces : w'.places = w.places ++ [some (.user u)])
    (hstore : w'.auth_store = w.auth_store)
    (hfree : ∀ {d v}, w.row users d = some v → users.clash u v = false)
    (hname : w.auth_store u.username = none) : Bound wa w' := by
  have hpasskeys : ∀ d, w'.row passkey_credentials d = w.row passkey_credentials d :=
    look_of_insert_hidden (g := passkey_credentials.prj) hplaces rfl
  have howners : ∀ d, w'.look passkey_owner d = w.look passkey_owner d :=
    look_of_insert_hidden hplaces rfl
  have hnew : ∀ {d i name}, w'.look account_name d = some (i, name) →
      i = u.id ∧ name = u.username ∨ w.look account_name d = some (i, name) := by
    intro d i name hd
    rw [look_of_insert hplaces] at hd
    by_cases hlast : d = w.db.length
    · rw [if_pos hlast] at hd
      obtain ⟨rfl, rfl⟩ := Prod.mk.inj (Option.some.inj hd)
      exact .inl ⟨rfl, rfl⟩
    · rw [if_neg hlast] at hd
      exact .inr hd
  have hother : ∀ {d i}, w.look account_name d ≠ some (i, u.username) := by
    intro d i hd
    obtain ⟨v, hv, -, hvname⟩ := look_account_name.mp hd
    have hclash := hfree hv
    simp [users, hvname] at hclash
  refine ⟨h.filed.same (hset.steady _) hpasskeys, hset.level _, fun {d d' i i' name} hd hd' => ?_,
    fun {name timed} hstored => ?_⟩
  · rcases hnew hd with ⟨rfl, rfl⟩ | hd <;> rcases hnew hd' with ⟨rfl, hname'⟩ | hd'
    · rfl
    · exact absurd hd' hother
    · exact absurd (hname' ▸ hd) hother
    · exact h.unique hd hd'
  · rw [hstore] at hstored
    obtain ⟨owner, hcreds, howner⟩ := h.ceremonies hstored
    refine ⟨owner, fun k hk => (hcreds k hk).of_same howners, fun {d i} hd => ?_⟩
    rcases hnew hd with ⟨-, rfl⟩ | hd
    · rw [hname] at hstored
      cases hstored
    · exact howner hd

/-- An account updated; a name it gets is stored for no other's ceremony. -/
theorem Bound.updated (h : Bound wa w) (hlevel : w'.Level 0 account_name)
    (hsteady : w'.Steady 0 passkey_credentials) (hstore : w'.auth_store = w.auth_store)
    (hpasskeys : ∀ d, w'.row passkey_credentials d = w.row passkey_credentials d)
    {id : Uuid} {dto : UpdateUser}
    (hrows : ∀ d, w'.row users d = (w.row users d).map fun v =>
      if v.id == id then v.update dto else v)
    (hfree : ∀ {name}, dto.username = some name →
      ∀ {d v}, w.row users d = some v → v.id ≠ id → v.username ≠ name)
    (hname : ∀ {name timed}, dto.username = some name → w.auth_store name = some timed →
      ∀ k ∈ timed.state.credentials, w.Registered id k) : Bound wa w' := by
  have howners := owners_same hpasskeys
  have hold : ∀ {d i name}, w'.look account_name d = some (i, name) →
      i = id ∧ dto.username = some name ∨ w.look account_name d = some (i, name) := by
    intro d i name hd
    obtain ⟨u, hu, rfl, rfl⟩ := look_account_name.mp hd
    rw [hrows] at hu
    obtain ⟨v, hv, rfl⟩ := Option.map_eq_some_iff.mp hu
    by_cases hid : v.id = id
    · rw [if_pos (by simpa using hid)]
      cases hdto : dto.username with
      | some name => exact .inl ⟨hid, by simp [User.update, hdto]⟩
      | none => exact .inr (look_account_name.mpr ⟨v, hv, rfl, by simp [User.update, hdto]⟩)
    · rw [if_neg (by simpa using hid)]
      exact .inr (look_account_name.mpr ⟨v, hv, rfl, rfl⟩)
  have hsole : ∀ {d i name}, dto.username = some name → w.look account_name d = some (i, name) →
      i = id := by
    intro d i name hdto hd
    obtain ⟨v, hv, rfl, rfl⟩ := look_account_name.mp hd
    by_contra hne
    exact hfree hdto hv hne rfl
  refine ⟨h.filed.same hsteady hpasskeys, hlevel, fun {d d' i i' name} hd hd' => ?_,
    fun {name timed} hstored => ?_⟩
  · rcases hold hd with ⟨rfl, hdto⟩ | hd <;> rcases hold hd' with ⟨rfl, hdto'⟩ | hd'
    · rfl
    · exact (hsole hdto hd').symm
    · exact hsole hdto' hd
    · exact h.unique hd hd'
  · rw [hstore] at hstored
    by_cases hdto : dto.username = some name
    · refine ⟨id, fun k hk => (hname hdto hstored k hk).of_same howners, fun {d i} hd => ?_⟩
      rcases hold hd with ⟨rfl, -⟩ | hd
      · rfl
      · exact hsole hdto hd
    · obtain ⟨owner, hcreds, howner⟩ := h.ceremonies hstored
      refine ⟨owner, fun k hk => (hcreds k hk).of_same howners, fun {d i} hd => ?_⟩
      rcases hold hd with ⟨-, hname'⟩ | hd
      · exact absurd hname' hdto
      · exact howner hd

/-- A passkey added under the id of its credential. -/
theorem Bound.enrolled (h : Bound wa w) (hset : w'.Settled 0) (hfiled : Filed wa w')
    {p : PasskeyCredential} (hplaces : w'.places = w.places ++ [some (.passkey_credential p)])
    (hstore : w'.auth_store = w.auth_store) : Bound wa w' := by
  have hnames : ∀ d, w'.look account_name d = w.look account_name d :=
    look_of_insert_hidden hplaces rfl
  refine ⟨hfiled, hset.level _, fun {d d' i i' name} hd hd' => ?_, fun {name timed} hstored => ?_⟩
  · rw [hnames] at hd hd'
    exact h.unique hd hd'
  · rw [hstore] at hstored
    obtain ⟨owner, hcreds, howner⟩ := h.ceremonies hstored
    refine ⟨owner, fun k hk => ?_, fun {d i} hd => howner (by rwa [hnames] at hd)⟩
    obtain ⟨q, hq, hqo, hqk⟩ := hcreds k hk
    obtain ⟨d, hd⟩ := mem_rows_iff.mp hq
    refine ⟨q, mem_rows_iff.mpr ⟨d, ?_⟩, hqo, hqk⟩
    rw [row_of_insert hplaces, if_neg, hd]
    rintro rfl
    rw [World.row, List.getElem?_eq_none (Nat.le_refl _)] at hd
    cases hd

/-- Passkeys removed that no stored ceremony lists. -/
theorem Bound.removed (h : Bound wa w) (hset : w'.Settled 0) (hstore : w'.auth_store = w.auth_store)
    (hnames : ∀ d, w'.look account_name d = w.look account_name d)
    {q : PasskeyCredential → Bool}
    (hrows : ∀ d, w'.row passkey_credentials d =
      (w.row passkey_credentials d).filter fun p => !q p)
    (hq : ∀ p ∈ w.rows passkey_credentials, q p = true → ∀ {name timed},
      w.auth_store name = some timed → ∀ k ∈ timed.state.credentials,
        p.credential_id ≠ credential_id_b64 k) : Bound wa w' := by
  refine ⟨h.filed.removed hset hrows, hset.level _, fun {d d' i i' name} hd hd' => ?_,
    fun {name timed} hstored => ?_⟩
  · rw [hnames] at hd hd'
    exact h.unique hd hd'
  · rw [hstore] at hstored
    obtain ⟨owner, hcreds, howner⟩ := h.ceremonies hstored
    refine ⟨owner, fun k hk => ?_, fun {d i} hd => howner (by rwa [hnames] at hd)⟩
    obtain ⟨p, hp, hpo, hpk⟩ := hcreds k hk
    obtain ⟨d, hd⟩ := mem_rows_iff.mp hp
    refine ⟨p, mem_rows_iff.mpr ⟨d, ?_⟩, hpo, hpk⟩
    rw [hrows, hd, Option.filter_eq_some_iff]
    refine ⟨rfl, ?_⟩
    cases hqp : q p with
    | false => rfl
    | true => exact absurd hpk (hq p hp hqp hstored k hk)

/-- A ceremony filed under the name of the account whose passkeys it lists. -/
theorem Bound.started (h : Bound wa w) {name : String} {timed : TimedAuthState} {user : User}
    {d : Nat} (hd : w.row users d = some user) (hname : user.username = name)
    (hcreds : ∀ k ∈ timed.state.credentials, w.Registered user.id k) :
    Bound wa { w with auth_store := Function.update w.auth_store name (some timed) } := by
  refine ⟨⟨h.filed.steady, h.filed.coherent⟩, h.names_level, h.unique,
    fun {name' timed'} hstored => ?_⟩
  by_cases heq : name' = name
  · subst heq
    cases (Function.update_self ..).symm.trans hstored
    exact ⟨user.id, hcreds, fun hi =>
      h.unique hi (look_account_name.mpr ⟨user, hd, rfl, hname⟩)⟩
  · exact h.ceremonies ((Function.update_of_ne heq _ _).symm.trans hstored)

/-! ### Whole runs -/

/-- The request, by whom the middleware lets in, takes no passkey and no name away from a stored
ceremony: a passkey is removed only if no ceremony lists it, and a name somebody can have is taken
only if no ceremony is stored under it, or one for passkeys of the same account. -/
def Request.careful (who : Option Identity) (w : World) : Request Reg Cred → Prop
  | .register req =>
      (∀ v ∈ w.rows users, v.username ≠ req.username ∧ v.email ≠ req.email) →
        w.auth_store req.username = none
  | .update_user _ id dto =>
      ∀ u ∈ w.rows users, u.id = id → ∀ name, dto.username = some name →
        (∀ v ∈ w.rows users, v.id ≠ id → v.username ≠ name) →
          ∀ timed, w.auth_store name = some timed →
            ∀ k ∈ timed.state.credentials, w.Registered id k
  | .passkey_remove _ row_id =>
      ∀ session, who = some session →
        ∀ p ∈ w.rows passkey_credentials, p.id = row_id → p.user_id = session.sub →
          ∀ name timed, w.auth_store name = some timed →
            ∀ k ∈ timed.state.credentials, p.credential_id ≠ credential_id_b64 k
  | _ => True

theorem Bound.keeps {α : Type} {p : Handler α} (hp : p.Uses Aside) :
    Keeps c 0 admits (Bound wa) p :=
  keeps_of_uses hp fun _ _ _ _ _ ho _ hans hb => hb.aside ho hans

/-! ### One lemma for each request that touches a name, a passkey or a ceremony -/

theorem Bound.register (hset : w.Settled 0) (hb : Bound wa w) (req : RegisterRequest)
    (hfree : (∀ v ∈ w.rows users, v.username ≠ req.username ∧ v.email ≠ req.email) →
      w.auth_store req.username = none) :
    Ends c 0 admits (handlers.register c req) w fun w' _ => Bound wa w' := by
  have hnot : ∀ o, Plain o ∨ UserInsert o → ¬ Ceremony o := by
    intro o ho hc
    rcases ho with ho | ⟨mk, rfl⟩
    · exact ho.aside.1 hc
    · exact hc
  unfold handlers.register
  by_cases hvalid : (!req.validate c) = true
  · rw [if_pos hvalid]
    exact ends_ret hb
  rw [if_neg hvalid]
  intro resp w' hrun
  obtain ⟨r, w₁, hsvc, hrest⟩ := Prog.exec_bind.mp hrun
  have horderly : Orderly c 0 _ (UserService.register c req.username req.email
    req.password).run := register_orderly _ _ _
  have hstore : w₁.auth_store = w.auth_store := auth_store_kept horderly.uses hnot hsvc
  cases r with
  | error e =>
      obtain ⟨-, rfl⟩ := Prog.exec_ret.mp hrest
      obtain rfl := register_ends hset _ _ _ _ _ hsvc
      exact hb
  | ok _ =>
      obtain ⟨-, rfl⟩ := Prog.exec_ret.mp hrest
      obtain ⟨u, salt, hname, hemail, -, -, hnone, hplaces, hset'⟩ :=
        register_ends hset _ _ _ _ _ hsvc
      have hclash : ∀ {v}, v ∈ w.rows users → users.clash u v = false := fun hv =>
        hnone _ ((mem_sees_rows hset).mpr hv)
      refine hb.added hset' hplaces hstore (fun hv => hclash (mem_rows_iff.mpr ⟨_, hv⟩)) ?_
      rw [hname]
      refine hfree fun v hv => ?_
      have hv' := hclash hv
      simp only [users, Bool.or_eq_false_iff, beq_eq_false_iff_ne] at hv'
      exact ⟨fun h => hv'.1.2 (hname.trans h.symm), fun h => hv'.2 (hemail.trans h.symm)⟩

/-- An update through the repository keeps the ceremonies with their accounts if the name it sets
is stored for none, or for the account's own passkeys. -/
theorem Bound.renamed (hset : w.Settled 0) (hb : Bound wa w) {id : Uuid} {dto : UpdateUser}
    {ch : Choice} {updated : Op.Reply (.update id dto)}
    (hans : World.answer c 0 (.update id dto) ch w = some (w', updated))
    (hfree : ∀ u ∈ w.rows users, u.id = id → ∀ name, dto.username = some name →
      (∀ v ∈ w.rows users, v.id ≠ id → v.username ≠ name) →
        ∀ timed, w.auth_store name = some timed →
          ∀ k ∈ timed.state.credentials, w.Registered id k) : Bound wa w' := by
  have hset' : w'.Settled 0 := Op.Pooled.settled (fun _ hq => by cases hq; trivial) hans hset
  have hstore : w'.auth_store = w.auth_store :=
    answer_auth_store (o := .update id dto) (fun hc => hc) hans
  have hpasskeys : ∀ d, w'.row passkey_credentials d = w.row passkey_credentials d := by
    refine (Apart.frame (fun q hq => ?_) hans (hset.steady passkey_credentials)).2
    cases hq
    exact apart_set (U := users) fun _ => rfl
  obtain ⟨-, hsame | ⟨d₀, u, hu, hid, hnone, hrows⟩⟩ := update_accounts hans (hset.steady users)
  · exact hb.same (hb.filed.same (hset'.steady _) hpasskeys) (hset'.level _)
      (names_same hsame) (owners_same hpasskeys) fun name timed h => by rwa [hstore] at h
  · have hother : ∀ {name}, dto.username = some name →
        ∀ {d v}, w.row users d = some v → v.id ≠ id → v.username ≠ name := by
      intro name hdto d v hv hne heq
      have hclash := hnone hv hne
      simp [users, User.update, hdto, heq] at hclash
    refine hb.updated (hset'.level _) (hset'.steady _) hstore hpasskeys hrows hother
      fun hdto hstored => ?_
    refine hfree u (mem_rows_iff.mpr ⟨d₀, hu⟩) hid _ hdto (fun v hv hne => ?_) _ hstored
    obtain ⟨d, hd⟩ := mem_rows_iff.mp hv
    exact hother hdto hd hne

theorem Bound.register_finish (hwa : wa.Documented) (hset : w.Settled 0) (hb : Bound wa w)
    (label : Option String) (credential : Reg) (session : Identity) :
    Ends c 0 admits (passkey_register.finish c wa session label credential) w
      fun w' _ => Bound wa w' := by
  have htake : Ends c 0 admits (PasskeyState.take_reg_state c session.sub) w fun w' _ =>
      Bound wa w' ∧ w'.Settled 0 := by
    have horderly : Orderly c 0 Plain (PasskeyState.take_reg_state c session.sub) :=
      take_reg_state_orderly _
    exact fun r w' hrun => ⟨Bound.keeps (uses_mono horderly.uses fun _ => Plain.aside) w hb _ _ hrun,
      horderly.settles hset _ _ hrun⟩
  refine ends_bind (ends_mono htake ?_)
  intro w₁ got hpost
  obtain ⟨hb₁, hset₁⟩ := hpost
  cases got with
  | none => exact ends_ret hb₁
  | some reg_state =>
      dsimp only
      cases wa.finish_passkey_registration credential reg_state with
      | error e => exact ends_ret hb₁
      | ok passkey =>
          refine ends_run (endsE_mono (insert_credential_ends hset₁ _ _ _) ?_ ?_)
          · intro w₂ _ hpost
            obtain ⟨p, data, hdata, hpdata, _, hpid, _, hplaces, hset₂, hw₂⟩ := hpost
            have hfiled : Filed wa w₂ :=
              hb₁.filed.enrolled hwa hset₂ (hpdata ▸ hdata) hpid hplaces
            exact ends_ret (hb₁.enrolled hset₂ hfiled hplaces (by rw [hw₂]))
          · intro w₂ e hw₂
            subst hw₂
            exact ends_ret hb₁

theorem Bound.passkey_remove (hset : w.Settled 0) (hb : Bound wa w) (row_id : Uuid)
    (session : Identity)
    (hfree : ∀ p ∈ w.rows passkey_credentials, p.id = row_id → p.user_id = session.sub →
      ∀ name timed, w.auth_store name = some timed →
        ∀ k ∈ timed.state.credentials, p.credential_id ≠ credential_id_b64 k) :
    Ends c 0 admits (passkey_register.remove session row_id) w fun w' _ => Bound wa w' := by
  refine ends_run (endsE_mono (delete_credential_ends hset _ _) ?_ ?_)
  · intro w' removed hpost
    obtain ⟨hplaces, hset', hw⟩ := hpost
    have hnames : ∀ d, w'.row users d = w.row users d :=
      row_of_other (U := passkey_credentials) (f := Relation.del) (fun _ => rfl)
        (fun _ _ hr => by cases hr) hplaces
    have hb' : Bound wa w' := by
      refine hb.removed hset' (by rw [hw]) (names_same hnames) (row_of_delete hplaces) ?_
      intro p hp hq name timed hstored k hk
      simp only [Bool.and_eq_true, beq_iff_eq] at hq
      exact hfree p hp hq.1 hq.2 name timed hstored k hk
    cases removed <;> exact ends_ret hb'
  · intro w' e hw
    subst hw
    exact ends_ret hb

theorem Bound.login_start (hwa : wa.Documented) (hset : w.Settled 0) (hb : Bound wa w)
    (username : String) :
    Ends c 0 admits (passkey_login.start wa username) w fun w' _ => Bound wa w' := by
  unfold passkey_login.start
  dsimp only
  by_cases he : (trim username).isEmpty = true
  · rw [if_pos he]
    exact ends_ret hb
  rw [if_neg he]
  refine ends_run (endsE_mono (get_user_by_username_ends _) ?_ ?_)
  · intro w₁ user hpost
    obtain ⟨hw₁, hsees, hname⟩ := hpost
    subst hw₁
    refine ends_run (endsE_mono (credentials_for_user_ends _) ?_ ?_)
    · intro w₂ creds hpost
      obtain ⟨hw₂, hcreds⟩ := hpost
      subst hw₂
      dsimp only
      by_cases hc : creds.isEmpty = true
      · rw [if_pos hc]
        exact ends_ret hb
      rw [if_neg hc]
      refine ends_bind (ends_ask fun ch w₃ drawn _ hans => ?_)
      have hw₃ : w₃ = w₂ := World.answer_idle hans trivial
      subst hw₃
      change Except String String at drawn
      cases drawn with
      | error e => exact ends_ret hb
      | ok challenge =>
          refine ends_bind (ends_bind (ends_bind (ends_now fun t => ends_ret ?_)))
          refine ends_bind (ends_ask fun ch₄ w₄ stored _ hset₄ => ends_ret (ends_ret ?_))
          rcases World.doneOr_iff.mp hset₄ with ⟨-, heq⟩ | ⟨-, heq⟩
          · obtain ⟨rfl, -⟩ := Prod.mk.inj heq
            obtain ⟨d, hd⟩ := mem_sees_iff.mp hsees
            rw [hset.steady users d] at hd
            refine hb.started hd hname fun k hk => ?_
            rw [hwa.start] at hk
            obtain ⟨p, hp, howner, hdata⟩ := hcreds k hk
            exact hb.registered hp howner hdata
          · obtain ⟨rfl, -⟩ := Prod.mk.inj heq
            exact hb
    · intro w₂ e hw₂
      subst hw₂
      exact ends_ret hb
  · intro w₁ e hw₁
    subst hw₁
    exact ends_ret hb

/-- **A careful request keeps every stored ceremony with its account.** -/
theorem Bound.request (hwa : wa.Documented) (jwt_svc : JwtService) {who : Option Identity}
    (hwho : ∀ w o ch, admits w o ch → LetInAs who w o ch) (hset : w.Settled 0) (hb : Bound wa w)
    (req : Request Reg Cred) (hreq : req.careful who w) :
    Ends c 0 admits (req.handler c jwt_svc wa) w fun w' _ => Bound wa w' := by
  by_cases htouches : ¬ req.touches
  · exact Bound.keeps (uses_mono (req.uses c jwt_svc wa) fun _ => Request.aside htouches) w hb
  cases req with
  | register req => exact hb.register hset req hreq
  | update_user cookie id dto =>
      refine ends_middleware (fun session _ => ?_) hb
      refine ends_bind (ends_ask fun ch w' updated _ hans => ?_)
      have hb' : Bound wa w' := hb.renamed hset hans hreq
      change Except ApiError UserResponse at updated
      cases updated <;> exact ends_ret hb'
  | passkey_register_finish cookie label credential =>
      exact ends_middleware (fun session _ => hb.register_finish hwa hset label credential session) hb
  | passkey_remove cookie row_id =>
      exact ends_middleware_as hwho
        (fun session hsession => hb.passkey_remove hset row_id session (hreq session hsession)) hb
  | passkey_login_start username => exact hb.login_start hwa hset username
  | passkey_login_finish username credential params =>
      exact ends_mono (finish_ends hwa hset hb username credential params) fun _ _ h => h.1
  | _ => exact (htouches fun h => h).elim

end Bound

section Careful

variable {Reg Cred : Type} (c : Crates) (jwt_svc : JwtService) (wa : Webauthn Reg Cred)
  (rows : List Record)

/-- The states that careful requests lead to, each run to its end, whatever fails. -/
inductive Careful : World → Prop where
  | start : Careful (World.of rows)
  | request {w w' : World} {req : Request Reg Cred} {who : Option Identity} {resp : HttpResponse}
      (h : Careful w) (hreq : req.careful who w)
      (hrun : Prog.Exec (World.answer c) 0 (LetInAs who) (req.handler c jwt_svc wa) w resp w') :
      Careful w'
  | expire {w : World} (h : Careful w) (e : Expiry) : Careful (w.expire e)

variable {c jwt_svc wa rows}

theorem Bound.expire {w : World} (h : Bound wa w) (e : Expiry) : Bound wa (w.expire e) := by
  have hlook : ∀ {β : Type} (g : Record → Option β) d, (w.expire e).look g d = w.look g d := by
    intro β g d
    rw [World.look, World.look, World.expire_db]
  have hrows : ∀ d, (w.expire e).row passkey_credentials d = w.row passkey_credentials d :=
    hlook passkey_credentials.prj
  refine h.same (h.filed.same (fun d => ?_) hrows) (fun d => ?_) (hlook _) (hlook _)
    fun name timed hstored => ?_
  · rw [World.rowSeen, World.expire_db, hrows]
    exact h.filed.steady d
  · rw [World.expire_db, hlook]
    exact h.names_level d
  · cases e with
    | auth_state key =>
        by_cases hkey : name = key
        · subst hkey
          exact absurd ((Function.update_self ..).symm.trans hstored) (by simp)
        · exact (Function.update_of_ne hkey _ _).symm.trans hstored
    | _ => exact hstored

theorem Careful.bound (hwa : wa.Documented) (hrows : UniqueAccounts rows)
    (hkeys : CoherentPasskeys wa rows) {w : World} (h : Careful c jwt_svc wa rows w) :
    w.Settled 0 ∧ Bound wa w := by
  induction h with
  | start =>
      have hset : (World.of rows).Settled 0 := settled_of 0 rows
      refine ⟨hset, ⟨hset.steady _, fun hp hk => hkeys _ _ _ (row_of_iff.mp hp) hk⟩,
        hset.level _, fun {d d' i i' name} hd hd' => ?_, fun hstored => nomatch hstored⟩
      obtain ⟨u, hu, rfl, rfl⟩ := look_account_name.mp hd
      obtain ⟨u', hu', rfl, hname⟩ := look_account_name.mp hd'
      have heq := hrows _ _ _ _ (row_of_iff.mp hu) (row_of_iff.mp hu') (by simp [users, hname])
      subst heq
      rw [hu] at hu'
      cases hu'
      rfl
  | @request w w' req who resp _ hreq hrun ih =>
      have horderly : Orderly c 0 _ (req.handler c jwt_svc wa) := req.orderly jwt_svc wa
      exact ⟨horderly.settles ih.1 _ _ hrun,
        ih.2.request hwa jwt_svc (fun _ _ _ h => h) ih.1 req hreq _ _ hrun⟩
  | @expire w _ e ih =>
      refine ⟨?_, ih.2.expire e⟩
      rw [World.Settled, World.expire_db]
      exact ih.1

/-- **In careful runs a login with a passkey is sound**, whatever fails on the way. -/
theorem passkey_login_sound (hwa : wa.Documented) (hrows : UniqueAccounts rows)
    (hkeys : CoherentPasskeys wa rows) {w w' : World} (h : Careful c jwt_svc wa rows w)
    {query_username : String} {credential : Cred} {params : SessionParams} {resp : HttpResponse}
    (hrun : Prog.Exec (World.answer c) 0 Anyhow
      (passkey_login.finish c wa query_username credential params) w resp w') :
    SoundLogin wa w w' query_username credential := by
  obtain ⟨hset, hb⟩ := h.bound hwa hrows hkeys
  exact (finish_ends hwa hset hb query_username credential params _ _ hrun).2

end Careful

/-! ### Alice's passkey -/

theorem sample_webauthn_documented : sample_webauthn.Documented := by
  refine ⟨fun _ _ => rfl, fun {cred state result} h => ?_, fun {k data} h => ?_⟩
  · cases hfind : state.credentials.find? fun k => k.cred_id == cred with
    | none =>
        simp only [sample_webauthn, hfind] at h
        cases h
    | some k =>
        simp only [sample_webauthn, hfind] at h
        cases h
        exact ⟨k, List.mem_of_find?_eq_some hfind, by simpa using List.find?_some hfind⟩
  · cases h
    exact passkey_of_passkey_text k

/-- Alice, signed in, with her passkey. -/
def enrolled : List Record :=
  [.user (sample_user "old password"), .session sample_session,
    .passkey_credential sample_enrolment]

theorem enrolled_unique : UniqueAccounts enrolled := by
  intro d d' u u' hd hd' _
  have hzero : ∀ {d u}, enrolled[d]? = some (.user u) → d = 0 := by
    intro d u hd
    rcases d with _ | _ | _ | d
    · rfl
    · cases hd
    · cases hd
    · cases hd
  rw [hzero hd, hzero hd']

theorem enrolled_coherent : CoherentPasskeys sample_webauthn enrolled := by
  intro d p k hd hk
  rcases d with _ | _ | _ | d
  · cases hd
  · cases hd
  · cases hd
    obtain rfl := Option.some.inj ((passkey_of_passkey_text sample_passkey).symm.trans hk)
    rfl
  · cases hd

abbrev SampleRequest : Type := Request Passkey (List UInt8)

def alice_starts : SampleRequest := .passkey_login_start "alice"

def alice_removes : SampleRequest := .passkey_remove (uuid_text 1) 3

/-- Alice finishes with the credential of her passkey. -/
def alice_finishes : Handler HttpResponse :=
  passkey_login.finish sample_crates sample_webauthn "alice" [1, 2, 3] ⟨"10.0.0.1", "browser"⟩

/-- Alice starts, and finishes. -/
theorem passkey_login_sound_for_alice : ∃ w w' s,
    Careful sample_crates sample_jwt sample_webauthn enrolled w ∧
      w.row sessions 3 = none ∧ w'.row sessions 3 = some s ∧
      SoundLogin sample_webauthn w w' "alice" [1, 2, 3] := by
  have hrun : ∃ w w' s resp resp', Prog.exec? (World.answer sample_crates) 0
      (fun w o ch => decide (LetInAs none w o ch))
      [.go, .go, .text "challenge", .time 0, .go]
      (alice_starts.handler sample_crates sample_jwt sample_webauthn) (World.of enrolled) =
        some (resp, w) ∧
      Prog.exec? (World.answer sample_crates) 0 (fun _ _ _ => true)
        [.go, .go, .go, .time 0, .go, .time 0, .go, .time 0, .time 0, .key 9] alice_finishes w =
          some (resp', w') ∧
      w.row sessions 3 = none ∧ w'.row sessions 3 = some s := ⟨_, _, _, _, _, rfl, rfl, rfl, rfl⟩
  obtain ⟨w, w', s, resp, resp', hstart, hfinish, hbefore, hafter⟩ := hrun
  have hcareful : alice_starts.careful none (World.of enrolled) := trivial
  have h : Careful sample_crates sample_jwt sample_webauthn enrolled w :=
    .request .start hcareful ((Prog.exec_of_exec? hstart).mono fun _ _ _ => of_decide_eq_true)
  exact ⟨w, w', s, h, hbefore, hafter, passkey_login_sound sample_webauthn_documented
    enrolled_unique enrolled_coherent h ((Prog.exec_of_exec? hfinish).mono fun _ _ _ _ => trivial)⟩

/-- **A removed passkey logs in**: Alice starts, removes her only passkey, and finishes with it. -/
theorem removed_passkey_logs_in : ∃ w w' served resp,
    Runs sample_crates sample_jwt sample_webauthn Anyhow (World.of enrolled) served w ∧
      Prog.Exec (World.answer sample_crates) 0 Anyhow alice_finishes w resp w' ∧
      resp.status = 200 ∧ ¬ SoundLogin sample_webauthn w w' "alice" [1, 2, 3] := by
  have hrun : ∃ w₁ w w' s resp₁ resp₂ resp,
      Prog.exec? (World.answer sample_crates) 0 (fun _ _ _ => true)
        [.go, .go, .text "challenge", .time 0, .go]
        (alice_starts.handler sample_crates sample_jwt sample_webauthn) (World.of enrolled) =
          some (resp₁, w₁) ∧
      Prog.exec? (World.answer sample_crates) 0 (fun _ _ _ => true)
        [.identity as_alice, .go]
        (alice_removes.handler sample_crates sample_jwt sample_webauthn) w₁ = some (resp₂, w) ∧
      Prog.exec? (World.answer sample_crates) 0 (fun _ _ _ => true)
        [.go, .go, .go, .time 0, .go, .time 0, .time 0, .key 9] alice_finishes w =
          some (resp, w') ∧
      resp.status = 200 ∧ w.row sessions 3 = none ∧ w'.row sessions 3 = some s ∧
      w'.rows passkey_credentials = [] :=
    ⟨_, _, _, _, _, _, _, rfl, rfl, rfl, rfl, rfl, rfl, rfl⟩
  obtain ⟨w₁, w, w', s, resp₁, resp₂, resp, hstart, hremove, hfinish, hok, hbefore, hafter, hgone⟩ :=
    hrun
  refine ⟨w, w', [(alice_starts, resp₁), (alice_removes, resp₂)], resp,
    .request ((Prog.exec_of_exec? hstart).mono fun _ _ _ _ => trivial)
      (.request ((Prog.exec_of_exec? hremove).mono fun _ _ _ _ => trivial) (.nil _)),
    (Prog.exec_of_exec? hfinish).mono fun _ _ _ _ => trivial, hok, fun hsound => ?_⟩
  obtain ⟨timed, result, -, -, p, hp, -⟩ := hsound 3 s hbefore hafter
  rw [hgone] at hp
  cases hp

end Authnz
