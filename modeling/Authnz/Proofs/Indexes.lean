/-
The schema's unique indexes, in every state requests lead to.

A table's key is checked where a row is added, and no statement of the service
rewrites a key of `sessions` or `passkey_credentials`.  So the id of a session and
the credential of a passkey name one row, in whatever order requests come and
wherever they fail.
-/
import Authnz.Proofs.Ceremonies

namespace Authnz

open Basis

/-! ### Sessions and passkeys -/

theorem sessions_clash_comm (s t : Session) : sessions.clash s t = sessions.clash t s := by
  simp only [sessions, Bool.beq_comm]

theorem passkeys_clash_comm (k l : PasskeyCredential) :
    passkey_credentials.clash k l = passkey_credentials.clash l k := by
  simp only [passkey_credentials, Bool.beq_comm]

/-- No operation rewrites the key of a session. -/
theorem Plain.keeps_sessions {o : Op} (h : Plain o) {q : SqlOp Record}
    (hq : o.statement = some q) : KeepsKeys sessions q := by
  cases h with
  | quiet h hc => cases o <;> first | exact h.elim | cases hq
  | begin | commit | rollback | select p =>
      cases hq
      exact .apart ⟨fun hm => hm.elim, fun hi => hi.elim⟩
  | session_insert new =>
      cases hq
      exact .insert new.withId
  | session_delete p =>
      cases hq
      exact .delete p
  | token_revoke p =>
      cases hq
      exact .apart (apart_set (U := refresh_tokens) fun _ => rfl)
  | token_delete ex p =>
      cases hq
      exact .apart (apart_delete (U := refresh_tokens) fun _ => rfl)
  | reset_insert mk =>
      cases hq
      exact .apart (apart_insert (U := password_resets) fun _ => rfl)
  | reset_spend p =>
      cases hq
      exact .apart (apart_set (U := password_resets) fun _ => rfl)
  | event_insert e =>
      cases hq
      exact .apart (apart_insert (U := outbox) fun _ => rfl)

variable {Reg Cred : Type}

theorem Request.keeps_sessions {req : Request Reg Cred} {o : Op} (h : Plain o ∨ req.special o)
    {q : SqlOp Record} (hq : o.statement = some q) : KeepsKeys sessions q := by
  rcases h with h | h
  · exact h.keeps_sessions hq
  · exact .apart (Request.special_apart (fun _ => rfl) (fun _ => rfl) (fun _ => rfl) h hq)

/-- No operation rewrites the key of a passkey. -/
theorem Request.keeps_passkeys {req : Request Reg Cred} {o : Op} (h : Plain o ∨ req.special o)
    {q : SqlOp Record} (hq : o.statement = some q) : KeepsKeys passkey_credentials q := by
  by_cases htouches : ¬ req.touches
  · exact .apart ((Request.aside htouches h).2 q hq).2
  rcases h with h | h
  · exact .apart (h.apart passkeys_elsewhere hq)
  cases req with
  | register req =>
      obtain ⟨mk, rfl⟩ := h
      cases hq
      exact .apart (apart_insert (U := users) fun _ => rfl)
  | update_user cookie id dto =>
      obtain ⟨id, dto, rfl⟩ := h
      cases hq
      exact .apart (apart_set (U := users) fun _ => rfl)
  | passkey_register_finish cookie label credential =>
      obtain ⟨mk, rfl⟩ := h
      cases hq
      exact .insert mk
  | passkey_remove cookie row_id =>
      obtain ⟨p, rfl⟩ := h
      cases hq
      exact .delete p
  | passkey_login_start username | passkey_login_finish username credential params =>
      cases h with
      | ceremony hc => cases o <;> first | exact hc.elim | cases hq
      | counter p data now =>
          cases hq
          exact .set p (fun _ _ => rfl) fun _ _ => rfl
  | _ => exact (htouches fun h => h).elim

/-! ### Every request -/

section Requests

variable {c : Crates} {jwt_svc : JwtService} {wa : Webauthn Reg Cred}
  {admits : World → Op → Choice → Prop} {R : PasskeyCredential → Prop} {w w' : World}

theorem Request.indexed_sessions (req : Request Reg Cred) :
    Keeps c 0 admits (Indexed sessions) (req.handler c jwt_svc wa) :=
  keeps_of_uses (req.uses c jwt_svc wa) fun _ _ _ _ _ ho _ hans h =>
    h.step sessions_clash_comm (fun _ hq => req.keeps_sessions ho hq) hans

theorem Request.indexed_passkeys (req : Request Reg Cred) :
    Keeps c 0 admits (Indexed passkey_credentials) (req.handler c jwt_svc wa) :=
  keeps_of_uses (req.uses c jwt_svc wa) fun _ _ _ _ _ ho _ hans h =>
    h.step passkeys_clash_comm (fun _ hq => req.keeps_passkeys ho hq) hans

/-- The operation leaves the stored passkeys alone. -/
def PasskeyAside (o : Op) : Prop := ∀ q, o.statement = some q → Apart passkey_credentials.prj q

theorem Stored.keeps {α : Type} {p : Handler α} (hp : p.Uses PasskeyAside) :
    Keeps c 0 admits (Stored R) p := by
  refine keeps_of_uses hp fun w o ch w' r ho _ hans h => ?_
  obtain ⟨hst, hrows⟩ := Apart.frame ho hans h.steady
  exact h.same hst hrows

theorem Plain.passkey_aside {o : Op} (h : Plain o) : PasskeyAside o :=
  fun _ hq => h.apart passkeys_elsewhere hq

theorem login_start_stored (username : String) :
    Keeps c 0 admits (Stored R) (passkey_login.start wa username) := by
  unfold passkey_login.start
  dsimp only
  generalize trim username = name
  refine Stored.keeps ?_
  by_cases he : name.isEmpty = true
  · rw [if_pos he]
    trivial
  rw [if_neg he]
  have huser : Orderly c 0 Plain (UserService.get_user_by_username name).run :=
    get_user_by_username_orderly _
  refine Prog.uses_bind (uses_mono huser.uses fun _ => Plain.passkey_aside) fun user => ?_
  cases user with
  | error e => trivial
  | ok user =>
      have hcreds : Orderly c 0 Plain (CredsRepo.credentials_for_user wa user.id).run :=
        credentials_for_user_orderly _
      refine Prog.uses_bind (uses_mono hcreds.uses fun _ => Plain.passkey_aside) fun creds => ?_
      cases creds with
      | error e => trivial
      | ok creds =>
          dsimp only
          by_cases hc : creds.isEmpty = true
          · rw [if_pos hc]
            trivial
          rw [if_neg hc]
          refine Prog.uses_bind (uses_ask fun q hq => nomatch hq) fun challenge => ?_
          cases challenge with
          | error e => trivial
          | ok challenge =>
              refine Prog.uses_bind (Prog.uses_bind (Prog.uses_bind (uses_ask fun q hq => nomatch hq)
                fun _ => trivial) fun _ => ?_) fun _ => trivial
              exact Prog.uses_bind (uses_ask fun q hq => nomatch hq) fun _ => trivial

/-- What the service writes to the passkeys, every request leaves them with. -/
theorem Request.stored (hR : Written wa R) (hset : w.Settled 0) (hf : Stored R w)
    (req : Request Reg Cred) :
    Ends c 0 admits (req.handler c jwt_svc wa) w fun w' _ => Stored R w' := by
  by_cases htouches : ¬ req.touches
  · exact Stored.keeps (uses_mono (req.uses c jwt_svc wa) fun _ h q hq =>
      ((Request.aside htouches h).2 q hq).2) w hf
  cases req with
  | register req =>
      refine Stored.keeps (uses_mono ((Request.register req).uses c jwt_svc wa) fun o ho => ?_) w hf
      rcases ho with ho | ⟨mk, rfl⟩
      · exact ho.passkey_aside
      · rintro q ⟨⟩
        exact apart_insert (U := users) fun _ => rfl
  | update_user cookie id dto =>
      refine Stored.keeps (uses_mono ((Request.update_user cookie id dto).uses c jwt_svc wa)
        fun o ho => ?_) w hf
      rcases ho with ho | ⟨id, dto, rfl⟩
      · exact ho.passkey_aside
      · rintro q ⟨⟩
        exact apart_set (U := users) fun _ => rfl
  | passkey_register_finish cookie label credential =>
      refine ends_middleware (fun session _ => ?_) hf
      have horderly : Orderly c 0 Plain (PasskeyState.take_reg_state c session.sub) :=
        take_reg_state_orderly _
      refine ends_bind (ends_mono (Q := fun w' _ => Stored R w' ∧ w'.Settled 0) ?_ ?_)
      · exact fun r w' hrun => ⟨Stored.keeps (uses_mono horderly.uses fun _ => Plain.passkey_aside)
          w hf _ _ hrun, horderly.settles hset _ _ hrun⟩
      intro w₁ got hpost
      obtain ⟨hf₁, hset₁⟩ := hpost
      cases got with
      | none => exact ends_ret hf₁
      | some reg_state =>
          dsimp only
          cases wa.finish_passkey_registration credential reg_state with
          | error e => exact ends_ret hf₁
          | ok passkey =>
              refine ends_run (endsE_mono (insert_credential_ends hset₁ _ _ _) ?_ ?_)
              · intro w₂ _ hpost
                obtain ⟨p, data, hdata, hpdata, _, hpid, _, hplaces, hset₂, _⟩ := hpost
                exact ends_ret (hf₁.enrolled hR hset₂ (hpdata ▸ hdata) hpid hplaces)
              · intro w₂ e hw₂
                subst hw₂
                exact ends_ret hf₁
  | passkey_remove cookie row_id =>
      refine ends_middleware (fun session _ => ?_) hf
      refine ends_run (endsE_mono (delete_credential_ends hset _ _) ?_ ?_)
      · intro w' removed hpost
        obtain ⟨hplaces, hset', _⟩ := hpost
        have hf' : Stored R w' := hf.removed hset' (row_of_delete hplaces)
        cases removed <;> exact ends_ret hf'
      · intro w' e hw
        subst hw
        exact ends_ret hf
  | passkey_login_start username =>
      change Ends c 0 admits (passkey_login.start wa username) w _
      exact login_start_stored username w hf
  | passkey_login_finish username credential params =>
      have hsame : ∀ {w' : World}, w'.db = w.db → Stored R w' ∧ w'.Settled 0 := by
        intro w' hdb
        exact ⟨hf.same (hf.steady.of_db hdb) (row_of_db hdb), hset.of_db hdb⟩
      change Ends c 0 admits (passkey_login.finish c wa username credential params) w _
      unfold passkey_login.finish
      refine ends_run (endsE_mono (get_user_by_username_ends _) ?_ ?_)
      · intro w₁ user hpost
        obtain ⟨hw₁, _, _⟩ := hpost
        subst hw₁
        refine ends_bind (ends_mono (take_auth_state_ends _) ?_)
        intro w₂ got hpost
        obtain ⟨hdb, _, _⟩ := hpost
        obtain ⟨hf₂, hset₂⟩ := hsame hdb
        cases got with
        | none => exact ends_ret hf₂
        | some auth_state =>
            dsimp only
            cases wa.finish_passkey_authentication credential auth_state with
            | error e => exact ends_ret hf₂
            | ok result =>
                refine ends_bind (ends_mono (refresh_counter_ends hset₂ _ _) ?_)
                intro w₃ _ hcount
                have hf₃ : Stored R w₃ := by
                  rcases hcount with heq | ⟨-, -, -, k', -, -, -, -, hre⟩
                  · subst heq
                    exact hf₂
                  · exact hf₂.rewritten hR hre
                have horderly : Orderly c 0 Plain (handlers.start_session c user params) :=
                  start_session_orderly _ _
                exact Stored.keeps (uses_mono horderly.uses fun _ => Plain.passkey_aside) w₃ hf₃
      · intro w₁ e hw₁
        subst hw₁
        exact ends_ret hf
  | _ => exact (htouches fun h => h).elim

/-- **Every request leaves passkeys filed under the id of their credential.** -/
theorem Request.filed (hwa : wa.Documented) (hset : w.Settled 0) (hf : Filed wa w)
    (req : Request Reg Cred) :
    Ends c 0 admits (req.handler c jwt_svc wa) w fun w' _ => Filed wa w' :=
  ends_mono (req.stored hwa.files hset (filed_iff.mp hf)) fun _ _ h => filed_iff.mpr h

/-- What holds of the keys in every state requests lead to. -/
structure KeysSound (wa : Webauthn Reg Cred) (w : World) : Prop where
  settled : w.Settled 0
  session_ids : Indexed sessions w
  passkey_keys : Indexed passkey_credentials w
  filed : Filed wa w

theorem KeysSound.of {rows : List Record} (hsessions : UniqueRows sessions rows)
    (hpasskeys : UniqueRows passkey_credentials rows) (hfiled : CoherentPasskeys wa rows) :
    KeysSound wa (World.of rows) :=
  ⟨settled_of 0 rows, .of hsessions, .of hpasskeys, (settled_of 0 rows).steady _,
    fun hp hk => hfiled _ _ _ (row_of_iff.mp hp) hk⟩

theorem KeysSound.of_db (h : KeysSound wa w) (hdb : w'.db = w.db) : KeysSound wa w' :=
  ⟨h.settled.of_db hdb, h.session_ids.same (h.session_ids.steady.of_db hdb) (row_of_db hdb),
    h.passkey_keys.same (h.passkey_keys.steady.of_db hdb) (row_of_db hdb),
    h.filed.same (h.filed.steady.of_db hdb) (row_of_db hdb)⟩

theorem KeysSound.runs (hwa : wa.Documented) {served : List (Request Reg Cred × HttpResponse)}
    (h : Runs c jwt_svc wa admits w served w') (hw : KeysSound wa w) : KeysSound wa w' := by
  refine h.invariant (fun req resp w w' hI hrun => ?_)
    (fun e w hI => hI.of_db (World.expire_db e w)) hw
  have horderly : Orderly c 0 _ (req.handler c jwt_svc wa) := req.orderly jwt_svc wa
  exact ⟨horderly.settles hI.settled _ _ hrun, req.indexed_sessions w hI.session_ids _ _ hrun,
    req.indexed_passkeys w hI.passkey_keys _ _ hrun, req.filed hwa hI.settled hI.filed _ _ hrun⟩

end Requests

end Authnz
