/-
Reading a run of the service.

Every call keeps to what it is entitled to, and what it was told was true when it
was told.  So what stands behind a row can be read off the row: `Saw` is a row that
was committed at some moment while a call was under way, and from it come the
credentials a call has shown, a password, a reset token or a challenge.  Whom the
session middleware let a cookie in as is its own affair, and is taken as it said it.
The statements hold for any number of calls in any order of their statements, with
any failures and with entries expiring in between.
-/
import Authnz.Proofs.EntitledRoutes
import Authnz.Proofs.Testimony

namespace Authnz

open Basis

variable {Reg Cred : Type}

/-- The events of a run of the service. -/
abbrev ServiceEvents (Reg Cred : Type) : Type :=
  List (Basis.Event Choice (ServiceCall Reg Cred) Expiry)

section Shown

variable (jwt_svc : JwtService) (wa : Webauthn Reg Cred) (rows : List Record)
  (evs : ServiceEvents Reg Cred)

/-- At some moment while call `k` was under way, this row was committed. -/
def Saw {α : Type} (k : Nat) (T : Relation α) (a : α) : Prop :=
  (whole_service jwt_svc wa).During (World.of rows) evs k fun w => a ∈ w.rows T

/-- At some moment while call `k` was under way, these were the committed rows that satisfy `q`. -/
def SawAll {α : Type} (k : Nat) (T : Relation α) (q : α → Bool) (l : List α) : Prop :=
  (whole_service jwt_svc wa).During (World.of rows) evs k fun w => l = (w.rows T).filter q

/-- The password given to call `k` was verified against that of the account. -/
def KnewPassword (k : Nat) (password : String) (u : User) : Prop :=
  Saw jwt_svc wa rows evs k users u ∧
    jwt_svc.crates.bcrypt_verify password u.password_hash = some true

/-- Call `k` came with the token of this reset, which was unused, and good by the call's clock. -/
def HeldReset (cfg : ServiceState Reg Cred) (k : Nat) (token : String) (p : PasswordReset) : Prop :=
  Saw jwt_svc wa rows evs k password_resets p ∧
    ∃ now, Told (cfg.log k) now ∧ Redeemable (hash_token jwt_svc.crates token) now p = true

end Shown

section Reading

variable {jwt_svc : JwtService} {wa : Webauthn Reg Cred} {rows : List Record}
  {evs : ServiceEvents Reg Cred} {cfg : ServiceState Reg Cred} {k : Nat}
  {call : ServiceCall Reg Cred}

/-- What is known of a run. -/
theorem run_entitled (hrun : (whole_service jwt_svc wa).run ⟨World.of rows, []⟩ evs = some cfg) :
    (mandates jwt_svc wa).policy.Upheld cfg ∧ Testimony (mandates jwt_svc wa) rows cfg :=
  run_testimony (calls_entitled jwt_svc wa) hrun

theorem filterMap_sel {α : Type} (T : Relation α) (q : α → Bool) (l : List Record) :
    (l.filter (T.sel q)).filterMap T.prj = (l.filterMap T.prj).filter q := by
  induction l with
  | nil => rfl
  | cons r l ih =>
      cases hr : T.prj r with
      | none => simpa [Relation.sel, hr] using ih
      | some a =>
          by_cases hq : q a = true
          · simpa [Relation.sel, hr, hq] using ih
          · simpa [Relation.sel, hr, hq] using ih

/-- What has been committed stays in the history. -/
theorem had_at_of_run {mid : ServiceState Reg Cred}
    (hrun : (whole_service jwt_svc wa).run mid evs = some cfg) {d : Nat} {r : Record}
    (h : mid.shared.db.HadAt d r) : cfg.shared.db.HadAt d r := by
  refine System.run_invariant (C := fun _ _ => True) (I := fun cfg => cfg.shared.db.HadAt d r) h ?_
    (System.along_true _ _ evs) hrun
  intro cfg₁ ev cfg₂ hI _ hnext
  cases ev with
  | spawn call =>
      obtain rfl : _ = cfg₂ := by simpa [System.next] using hnext
      exact hI
  | env e =>
      obtain rfl : _ = cfg₂ := by simpa [System.next] using hnext
      change ((World.expire e cfg₁.shared).db).HadAt d r
      rwa [World.expire_db]
  | step i ch =>
      simp only [System.next] at hnext
      split at hnext
      · split at hnext
        · rename_i hans
          obtain rfl : _ = cfg₂ := by simpa using hnext
          exact answer_had_at hans hI
        · cases hnext
      · cases hnext

theorem had_of_run {mid : ServiceState Reg Cred}
    (hrun : (whole_service jwt_svc wa).run mid evs = some cfg) {r : Record}
    (h : mid.shared.db.Had r) : cfg.shared.db.Had r := by
  obtain ⟨d, hat⟩ := h
  exact ⟨d, had_at_of_run hrun hat⟩

/-- A reply, at the moment it was given. -/
theorem heard (hrun : (whole_service jwt_svc wa).run ⟨World.of rows, []⟩ evs = some cfg)
    (hcall : cfg.call k = some call) {o : Op} {r : o.Reply} (hmem : ⟨o, r⟩ ∈ cfg.log k) :
    ∃ mid ch w', (whole_service jwt_svc wa).Given (World.of rows) evs cfg k o r (mid.log k) mid ∧
      World.answer jwt_svc.crates k o ch mid.shared = some (w', r) ∧
      Testimony (mandates jwt_svc wa) rows mid ∧
      (mandates jwt_svc wa).Permits call (mid.log k) o ∧ Policy.Later mid cfg := by
  obtain ⟨mid, past, hsuf, hgiven⟩ := System.run_gave_mem hrun hmem
  obtain ⟨evs₁, evs₂, -, hmid, hrest⟩ := hgiven.before
  obtain rfl := hgiven.log
  obtain ⟨ch, w', hans⟩ := hgiven.answer
  exact ⟨mid, ch, w', hgiven, hans, (run_entitled hmid).2, (run_entitled hrun).1.kept hcall _ _ _ hsuf,
    System.later_of_run hrest⟩

section Replies

variable (hrun : (whole_service jwt_svc wa).run ⟨World.of rows, []⟩ evs = some cfg)
  (hcall : cfg.call k = some call)

include hrun hcall

/-- A `SELECT` returned what was committed. -/
theorem listed_then {α : Type} {T : Relation α} {q : α → Bool} {l : List α}
    (h : Listed T q (cfg.log k) l) : SawAll jwt_svc wa rows evs k T q l := by
  obtain ⟨found, hmem, rfl⟩ := h
  obtain ⟨mid, ch, w', hgiven, hans, htold, hpermits, -⟩ := heard hrun hcall hmem
  refine hgiven.during ?_
  have hnone := htold.idle (hpermits.reads ⟨_, rfl⟩)
  rcases (World.answer_select hans).2 with heq | heq
  · obtain rfl := Except.ok.inj heq
    have hview : mid.shared.db.filterMap (Slot.view k) = mid.shared.db.filterMap Slot.current := by
      refine List.filterMap_congr fun s hs => ?_
      obtain ⟨d, hd⟩ := List.mem_iff_getElem?.mp hs
      have hholds : mid.shared.db.Holds k [] := fun d v =>
        ⟨fun hl => absurd hl (hnone d v), fun hm => absurd hm List.not_mem_nil⟩
      exact hholds.view hd fun v => List.not_mem_nil
    rw [hview, filterMap_sel]
    rfl
  · cases heq

theorem found_then {α : Type} {T : Relation α} {q : α → Bool} {a : α}
    (h : Found T q (cfg.log k) a) : Saw jwt_svc wa rows evs k T a ∧ q a = true := by
  obtain ⟨found, hmem, ha⟩ := h
  have hall := listed_then hrun hcall ⟨found, hmem, rfl⟩
  have hq : q a = true := by
    obtain ⟨-, -, mid, -, -, -, -, heq⟩ := hall
    rw [heq] at ha
    exact (List.mem_filter.mp ha).2
  refine ⟨hall.mono fun w heq => ?_, hq⟩
  rw [heq] at ha
  exact (List.mem_filter.mp ha).1

/-- An account the repository served is one there has been. -/
theorem retrieved_then {id : Uuid} {r : UserResponse} (h : Retrieved (cfg.log k) id r) :
    ∃ v : User, cfg.shared.db.Had (.user v) ∧ v.id = id ∧ UserResponse.of v = r := by
  obtain ⟨mid, ch, w', hgiven, hans, htold, -⟩ := heard hrun hcall h
  obtain ⟨evs₁, evs₂, -, hmid, hrest⟩ := hgiven.before
  have hid : r.id = id := (World.answer_retrieve hans).2 r rfl
  have hserved : ∃ v : User, mid.shared.db.Had (.user v) ∧ UserResponse.of v = r := by
    change World.answerRetrieve id ch mid.shared = some (w', Except.ok r) at hans
    unfold World.answerRetrieve at hans
    split at hans
    · obtain ⟨copy, hcopy, heq⟩ := Option.map_eq_some_iff.mp hans
      cases Except.ok.inj (Prod.mk.inj heq).2
      exact htold.copies hcopy
    · split at hans
      · rename_i copy hcopy
        cases Except.ok.inj (Prod.mk.inj (Option.some.inj hans)).2
        exact had_of_load hcopy
      · cases (Prod.mk.inj (Option.some.inj hans)).2
    · cases (Prod.mk.inj (Option.some.inj hans)).2
    · cases hans
  obtain ⟨v, hv, hof⟩ := hserved
  refine ⟨v, had_of_run hrest hv, ?_, hof⟩
  rw [← hid, ← hof]
  rfl

/-- A hash is one of the password. -/
theorem hashed_then {password hash : String} (h : HashedTo (cfg.log k) password hash) :
    ∃ salt, hash = jwt_svc.crates.bcrypt_hash password salt := by
  obtain ⟨mid, ch, w', hgiven, hans, -⟩ := heard hrun hcall h
  cases ch with
  | number salt =>
      cases hans
      exact ⟨salt, rfl⟩
  | fail => cases hans
  | _ => cases hans

/-- A challenge taken out of `links` was put there by a call. -/
theorem link_taken_then {link : String} {e : FA2Entry}
    (h : ⟨.links_remove link, some e⟩ ∈ cfg.log k) :
    HasPut (mandates jwt_svc wa) cfg ⟨.links_insert link e, ()⟩ := by
  obtain ⟨mid, ch, w', -, hans, htold, -, hlater⟩ := heard hrun hcall h
  exact (htold.links (World.answer_links_remove hans).2.symm).later hlater

theorem token_taken_then {nonce : String} {e : FA2Entry}
    (h : ⟨.tokens_remove nonce, some e⟩ ∈ cfg.log k) :
    HasPut (mandates jwt_svc wa) cfg ⟨.tokens_insert nonce e, ()⟩ := by
  obtain ⟨mid, ch, w', -, hans, htold, -, hlater⟩ := heard hrun hcall h
  exact (htold.tokens (World.answer_tokens_remove hans).2.symm).later hlater

theorem auth_state_then {key : String} {t : TimedAuthState}
    (h : ⟨.auth_get key, Except.ok (some t)⟩ ∈ cfg.log k) :
    HasPut (mandates jwt_svc wa) cfg ⟨.auth_set key t, Except.ok ()⟩ := by
  obtain ⟨mid, ch, w', -, hans, htold, -, hlater⟩ := heard hrun hcall h
  rcases World.doneOr_iff.mp hans with ⟨-, heq⟩ | ⟨-, heq⟩
  · exact (htold.auths (Except.ok.inj (Prod.mk.inj heq).2).symm).later hlater
  · cases (Prod.mk.inj heq).2

end Replies

/-- A reset marked as used was good until then. -/
theorem spent_then (hrun : (whole_service jwt_svc wa).run ⟨World.of rows, []⟩ evs = some cfg)
    {payload : PasswordResetConfirmRequest}
    (hcall : cfg.call k = some (.route (.confirm_password_reset payload))) {now : Time}
    {p : PasswordReset} (h : SpentReset (cfg.log k) (hash_token jwt_svc.crates payload.token) now p) :
    ∃ p₀, HeldReset jwt_svc wa rows evs cfg k payload.token p₀ ∧ p = p₀.spent := by
  obtain ⟨i, found, hmem, hrow⟩ := h
  obtain ⟨mid, ch, w', hgiven, hans, htold, hpermits, hlater⟩ := heard hrun hcall hmem
  have hmid : ∀ {call}, mid.call k = some call →
      call = .route (.confirm_password_reset payload) := fun hc =>
    Option.some.inj ((hlater.call hc).symm.trans hcall)
  rcases World.answer_visit hans with ⟨-, heq | ⟨heq, -⟩⟩ | ⟨s, a, hs, hfree, hv, hp, -, heq⟩
  · cases heq
  · cases Except.ok.inj heq
    cases hrow
  · obtain rfl := Except.ok.inj heq
    obtain ⟨p₀, rfl, hp₀⟩ := password_resets.sel_iff.mp hp
    have hspent : p = p₀.spent := by
      have hone := List.mem_singleton.mp hrow
      rw [password_resets.set_inj] at hone
      exact Record.password_reset.inj hone
    have hgood : ∃ now, Told (cfg.log k) now ∧
        Redeemable (hash_token jwt_svc.crates payload.token) now p₀ = true := by
      have hmake := hpermits.makes _ _ ⟨hp, rfl⟩
      rw [password_resets.set_inj] at hmake
      cases hmake with
      | spend hnow hp => exact ⟨_, (hlater.log k).subset hnow, hp⟩
    refine ⟨p₀, ⟨hgiven.during ?_, hgood⟩, hspent⟩
    rcases Slot.free_iff.mp hfree with hl | ⟨v, hl⟩
    · rw [Slot.view_of_unlocked hl] at hv
      exact List.mem_filterMap.mpr ⟨_, List.mem_filterMap.mpr ⟨s, List.mem_of_getElem? hs, hv⟩,
        password_resets.prj_inj p₀⟩
    -- the call itself makes resets used, and adds none
    · rw [Slot.view_of_own hl] at hv
      subst hv
      rcases ((htold.warranted _ _ hs).lock hl).last with ⟨r, hr, -, call, past, hc, -, hadd⟩ |
          ⟨r, call, past, hc, -, hmake⟩
      · obtain rfl := Option.some.inj hr
        obtain rfl := hmid hc
        cases hadd
      · obtain rfl := hmid hc
        cases hmake
        simp [Redeemable, PasswordReset.spent] at hp₀

end Reading

end Authnz
