/-
The stored passkeys.

What the repository's functions do to the rows, one after the other, and what every
request keeps of them: a row is filed under the id of the credential in it.
-/
import Authnz.Model.Sample
import Authnz.Proofs.Accounts

namespace Authnz

open Basis

/-- What the WebAuthn library and `serde_json` promise: a ceremony lists the credentials it was
started with, an assertion is accepted only for one of them, and a credential survives storage. -/
structure Webauthn.Documented {Reg Cred : Type} (wa : Webauthn Reg Cred) : Prop where
  start : ∀ credentials challenge,
    (wa.start_passkey_authentication credentials challenge).credentials = credentials
  finish : ∀ {cred : Cred} {state : PasskeyAuthentication} {result : AuthenticationResult},
    wa.finish_passkey_authentication cred state = .ok result →
      ∃ k ∈ state.credentials, k.cred_id = result.cred_id
  serde : ∀ {k : Passkey} {data : String}, wa.to_string k = some data → wa.from_str data = some k

/-- What else the WebAuthn library promises: updating a credential keeps its id. -/
def Webauthn.KeepsId {Reg Cred : Type} (wa : Webauthn Reg Cred) : Prop :=
  ∀ {k k' : Passkey} {result : AuthenticationResult} {changed : Bool},
    wa.update_credential k result = some (changed, k') → k'.cred_id = k.cred_id

/-- Stored passkeys are filed under the id of the credential in them. -/
def CoherentPasskeys {Reg Cred : Type} (wa : Webauthn Reg Cred) (rows : List Record) : Prop :=
  ∀ (d : Nat) (p : PasskeyCredential) (k : Passkey), rows[d]? = some (.passkey_credential p) →
    wa.from_str p.passkey_data = some k → p.credential_id = credential_id_b64 k

section Services

variable {Reg Cred : Type} {c : Crates} {wa : Webauthn Reg Cred} {me : Nat}
  {admits : World → Op → Choice → Prop} {w w' : World}

theorem mem_of_mapM {α β : Type} {f : α → Option β} {l : List α} {l' : List β}
    (h : l.mapM f = some l') {b : β} (hb : b ∈ l') : ∃ a ∈ l, f a = some b := by
  induction l generalizing l' with
  | nil =>
      rw [List.mapM_nil] at h
      cases h
      cases hb
  | cons a rest ih =>
      rw [List.mapM_cons] at h
      obtain ⟨b₀, ha, h⟩ := Option.bind_eq_some_iff.mp h
      obtain ⟨bs, hrest, h⟩ := Option.bind_eq_some_iff.mp h
      cases h
      rcases List.mem_cons.mp hb with rfl | hb
      · exact ⟨a, List.mem_cons_self, ha⟩
      · obtain ⟨a', ha', heq⟩ := ih hrest hb
        exact ⟨a', List.mem_cons_of_mem a ha', heq⟩

theorem credentials_for_user_ends {me : Nat} (user_id : Uuid) :
    EndsE c me admits (CredsRepo.credentials_for_user wa user_id) w
      (fun w' creds => w' = w ∧ ∀ k ∈ creds, ∃ p ∈ w.sees me passkey_credentials,
        p.user_id = user_id ∧ wa.from_str p.passkey_data = some k)
      (fun w' _ => w' = w) := by
  unfold CredsRepo.credentials_for_user
  refine endsE_bind (endsE_select ?_ fun _ _ => rfl)
  cases hcreds : ((w.sees me passkey_credentials).filter fun p => p.user_id == user_id).mapM
      fun p => wa.from_str p.passkey_data with
  | none => exact endsE_throw rfl
  | some creds =>
      refine endsE_ret ⟨rfl, fun k hk => ?_⟩
      obtain ⟨p, hp, hdata⟩ := mem_of_mapM hcreds hk
      obtain ⟨hsees, howner⟩ := List.mem_filter.mp hp
      exact ⟨p, hsees, by simpa using howner, hdata⟩

/-- A new passkey is filed under the id of its credential. -/
theorem insert_credential_ends (hset : w.Settled me) (user_id : Uuid) (passkey : Passkey)
    (label : Option String) :
    EndsE c me admits (CredsRepo.insert_credential wa user_id passkey label) w
      (fun w' _ => ∃ p data, wa.to_string passkey = some data ∧ p.passkey_data = data ∧
        p.user_id = user_id ∧ p.credential_id = credential_id_b64 passkey ∧
        (∀ q ∈ w.sees me passkey_credentials, passkey_credentials.clash p q = false) ∧
        w'.places = w.places ++ [some (.passkey_credential p)] ∧ w'.Settled me ∧
        w' = { w with db := w'.db })
      (fun w' _ => w' = w) := by
  unfold CredsRepo.insert_credential
  dsimp only
  cases hdata : wa.to_string passkey with
  | none => exact endsE_throw rfl
  | some data =>
      refine endsE_bind (endsE_lift (ends_now fun now => ?_))
      refine endsE_bind (endsE_insert (fun key w' hw hfree hdesk => ?_) (fun _ _ => rfl)
        fun _ => rfl)
      obtain ⟨hset', hplaces⟩ := places_of_insert hset hdesk
      exact endsE_ret ⟨_, data, rfl, rfl, rfl, rfl, hfree, hplaces, hset', hw⟩

theorem delete_credential_ends (hset : w.Settled me) (user_id row_id : Uuid) :
    EndsE c me admits (CredsRepo.delete_credential user_id row_id) w
      (fun w' _ => w'.places = w.places.map (Desk.rewrite
          (passkey_credentials.sel fun p => p.id == row_id && p.user_id == user_id) Relation.del) ∧
        w'.Settled me ∧ w' = { w with db := w'.db })
      (fun w' _ => w' = w) := by
  refine endsE_bind (endsE_delete (fun w' hw hdesk => endsE_ret ?_) fun _ _ => rfl)
  obtain ⟨hset', hplaces⟩ := places_of_write hset hdesk
  exact ⟨hplaces, hset', hw⟩

/-- What an update of the credential `k` makes of a row. -/
def PasskeyCredential.recounted (p : PasskeyCredential) (data : String) (now : Time) :
    PasskeyCredential := { p with passkey_data := data, last_used_at := some now }

/-- The rows filed under this credential get its new form, or nothing happens. -/
inductive Rewritten (wa : Webauthn Reg Cred) (me : Nat) (k : Passkey) (w w' : World) : Prop where
  | same (h : w' = w)
  | written {data : String} {now : Time} (hdata : wa.to_string k = some data)
      (hplaces : w'.places = w.places.map (Desk.rewrite
        (passkey_credentials.sel fun p => p.credential_id == credential_id_b64 k)
        (passkey_credentials.set (·.recounted data now))))
      (hset : w'.Settled me) (hw : w' = { w with db := w'.db })

theorem update_credential_ends (hset : w.Settled me) (k : Passkey) :
    Ends c me admits (CredsRepo.update_credential wa k).run w fun w' _ => Rewritten wa me k w w' := by
  unfold CredsRepo.update_credential
  dsimp only
  cases hdata : wa.to_string k with
  | none => exact ends_ret (.same rfl)
  | some data =>
      refine ends_of_endsE (endsE_bind (endsE_lift (ends_now fun now => ?_)))
      refine endsE_bind (endsE_update (fun w' hw hdesk => endsE_ret ?_) fun _ _ => .same rfl)
      obtain ⟨hset', hplaces⟩ := places_of_write hset hdesk
      exact .written hdata hplaces hset' hw

/-- A login writes back at most the credential of the account that was asserted. -/
theorem refresh_counter_ends (hset : w.Settled me) (user_id : Uuid)
    (result : AuthenticationResult) :
    Ends c me admits (passkey_login.refresh_counter wa user_id result) w fun w' _ =>
      w' = w ∨ ∃ p ∈ w.sees me passkey_credentials, ∃ k k', p.user_id = user_id ∧
        wa.from_str p.passkey_data = some k ∧ k.cred_id = result.cred_id ∧
        wa.update_credential k result = some (true, k') ∧ Rewritten wa me k' w w' := by
  refine ends_run (endsE_mono (credentials_for_user_ends user_id) ?_ ?_)
  · intro w' creds hpost
    obtain ⟨hw, hcreds⟩ := hpost
    subst hw
    dsimp only
    cases hfind : creds.find? fun k => k.cred_id == result.cred_id with
    | none => exact ends_ret (.inl rfl)
    | some k =>
        obtain ⟨p, hp, howner, hdata⟩ := hcreds k (List.mem_of_find?_eq_some hfind)
        have hid : k.cred_id = result.cred_id := by simpa using List.find?_some hfind
        dsimp only
        rcases hup : wa.update_credential k result with _ | ⟨_ | _, k'⟩
        · exact ends_ret (.inl rfl)
        · exact ends_ret (.inl rfl)
        · exact ends_bind (ends_mono (update_credential_ends hset k') fun _ _ h =>
            ends_ret (.inr ⟨p, hp, k, k', howner, hdata, hid, hup, h⟩))
  · intro w' e hw
    subst hw
    exact ends_ret (.inl rfl)

end Services

/-! ### Rows and their credentials -/

section Filed

variable {Reg Cred : Type} {c : Crates} {wa : Webauthn Reg Cred}
  {admits : World → Op → Choice → Prop} {w w' : World}

/-- Every stored passkey is one of `R`. -/
structure Stored (R : PasskeyCredential → Prop) (w : World) : Prop where
  steady : w.Steady 0 passkey_credentials
  each : ∀ {d : Nat} {p : PasskeyCredential}, w.row passkey_credentials d = some p → R p

/-- What the service writes is of `R`: a credential as `serde_json` has it, under its id. -/
def Written (wa : Webauthn Reg Cred) (R : PasskeyCredential → Prop) : Prop :=
  ∀ {p : PasskeyCredential} {k : Passkey}, wa.to_string k = some p.passkey_data →
    p.credential_id = credential_id_b64 k → R p

section Stored

variable {R : PasskeyCredential → Prop}

theorem Stored.same (h : Stored R w) (hsteady : w'.Steady 0 passkey_credentials)
    (hrows : ∀ d, w'.row passkey_credentials d = w.row passkey_credentials d) : Stored R w' := by
  refine ⟨hsteady, fun {d p} hp => ?_⟩
  rw [hrows] at hp
  exact h.each hp

theorem Stored.enrolled (hR : Written wa R) (h : Stored R w) (hset : w'.Settled 0)
    {p : PasskeyCredential} {k : Passkey} (hdata : wa.to_string k = some p.passkey_data)
    (hid : p.credential_id = credential_id_b64 k)
    (hplaces : w'.places = w.places ++ [some (.passkey_credential p)]) : Stored R w' := by
  refine ⟨hset.steady _, fun {d q} hq => ?_⟩
  rw [row_of_insert hplaces] at hq
  by_cases hd : d = w.db.length
  · rw [if_pos hd] at hq
    cases hq
    exact hR hdata hid
  · rw [if_neg hd] at hq
    exact h.each hq

theorem Stored.removed (h : Stored R w) (hset : w'.Settled 0) {q : PasskeyCredential → Bool}
    (hrows : ∀ d, w'.row passkey_credentials d =
      (w.row passkey_credentials d).filter q) : Stored R w' := by
  refine ⟨hset.steady _, fun {d p} hp => ?_⟩
  rw [hrows] at hp
  exact h.each (Option.filter_eq_some_iff.mp hp).1

theorem Stored.rewritten (hR : Written wa R) (h : Stored R w) {k : Passkey}
    (hre : Rewritten wa 0 k w w') : Stored R w' := by
  cases hre with
  | same heq =>
      subst heq
      exact h
  | written hdata hplaces hset _ =>
      refine ⟨hset.steady _, fun {d p} hp => ?_⟩
      rw [row_of_update hplaces] at hp
      obtain ⟨p₀, hp₀, rfl⟩ := Option.map_eq_some_iff.mp hp
      by_cases hkey : (p₀.credential_id == credential_id_b64 k) = true
      · rw [if_pos hkey]
        exact hR hdata (beq_iff_eq.mp hkey)
      · rw [if_neg hkey]
        exact h.each hp₀

end Stored

/-- Every stored passkey is filed under the id of the credential in it. -/
structure Filed (wa : Webauthn Reg Cred) (w : World) : Prop where
  steady : w.Steady 0 passkey_credentials
  coherent : ∀ {d : Nat} {p : PasskeyCredential} {k : Passkey},
    w.row passkey_credentials d = some p → wa.from_str p.passkey_data = some k →
      p.credential_id = credential_id_b64 k

theorem filed_iff : Filed wa w ↔ Stored (fun p => ∀ k, wa.from_str p.passkey_data = some k →
    p.credential_id = credential_id_b64 k) w :=
  ⟨fun h => ⟨h.steady, fun hp _ hk => h.coherent hp hk⟩,
    fun h => ⟨h.steady, fun hp hk => h.each hp _ hk⟩⟩

theorem Webauthn.Documented.files (hwa : wa.Documented) : Written wa fun p => ∀ k,
    wa.from_str p.passkey_data = some k → p.credential_id = credential_id_b64 k := by
  intro p k hdata hid k' hk'
  rw [hid, Option.some.inj ((hwa.serde hdata).symm.trans hk')]

theorem Filed.same (h : Filed wa w) (hsteady : w'.Steady 0 passkey_credentials)
    (hrows : ∀ d, w'.row passkey_credentials d = w.row passkey_credentials d) : Filed wa w' :=
  filed_iff.mpr ((filed_iff.mp h).same hsteady hrows)

theorem Filed.enrolled (hwa : wa.Documented) (h : Filed wa w) (hset : w'.Settled 0)
    {p : PasskeyCredential} {k : Passkey} (hdata : wa.to_string k = some p.passkey_data)
    (hid : p.credential_id = credential_id_b64 k)
    (hplaces : w'.places = w.places ++ [some (.passkey_credential p)]) : Filed wa w' :=
  filed_iff.mpr ((filed_iff.mp h).enrolled hwa.files hset hdata hid hplaces)

theorem Filed.removed (h : Filed wa w) (hset : w'.Settled 0) {q : PasskeyCredential → Bool}
    (hrows : ∀ d, w'.row passkey_credentials d =
      (w.row passkey_credentials d).filter fun p => !q p) : Filed wa w' :=
  filed_iff.mpr ((filed_iff.mp h).removed hset hrows)

theorem Filed.rewritten (hwa : wa.Documented) (h : Filed wa w) {k : Passkey}
    (hre : Rewritten wa 0 k w w') : Filed wa w' :=
  filed_iff.mpr ((filed_iff.mp h).rewritten hwa.files hre)

end Filed

end Authnz
