/-
Older reset tokens, over whole runs.

Setting a password revokes the sessions and the refresh tokens of its account, but
not its reset tokens: each of them is spent by being redeemed, and in no other way.
An older token is closed by a change of password if it was the only one left open
(`older_tokens_closed`), and otherwise redeems another change (`older_token_accepted`).
-/
import Authnz.Proofs.Authenticity
import Authnz.Proofs.Discretion
import Authnz.Proofs.Indexes

namespace Authnz

open Basis

/-! ### Rows of `password_resets` -/

/-- The row is this one, spent or not, and can no longer be redeemed if `S`. -/
structure PasswordReset.Is (p : PasswordReset) (S : Prop) (q : PasswordReset) : Prop where
  same : q = p ∨ q = p.spent
  closed : S → q.used ≠ some false

theorem PasswordReset.Is.spend {p q : PasswordReset} {S S' : Prop} (h : p.Is S q) :
    p.Is S' q.spent := by
  refine ⟨.inr ?_, fun _ hused => nomatch hused⟩
  rcases h.same with rfl | rfl
  · rfl
  · rfl

theorem PasswordReset.Is.mono {p q : PasswordReset} {S S' : Prop} (h : p.Is S q) (hS : S' → S) :
    p.Is S' q := ⟨h.same, fun hs => h.closed (hS hs)⟩

theorem PasswordReset.Is.trans {p q q' : PasswordReset} {S S' : Prop} (h : p.Is S q)
    (h' : q.Is S' q') : p.Is S' q' := by
  refine ⟨?_, h'.closed⟩
  rcases h.same with rfl | rfl
  · exact h'.same
  · rcases h'.same with rfl | rfl
    · exact .inr rfl
    · exact .inr rfl

theorem PasswordReset.Is.hash {p q : PasswordReset} {S : Prop} (h : p.Is S q) :
    q.token_hash = p.token_hash := by
  rcases h.same with rfl | rfl
  · rfl
  · rfl

theorem PasswordReset.Is.user {p q : PasswordReset} {S : Prop} (h : p.Is S q) :
    q.user_id = p.user_id := by
  rcases h.same with rfl | rfl
  · rfl
  · rfl

theorem PasswordReset.Is.expires {p q : PasswordReset} {S : Prop} (h : p.Is S q) :
    q.expires_at = p.expires_at := by
  rcases h.same with rfl | rfl
  · rfl
  · rfl

/-- A row stays as it is, or is spent. -/
inductive Ages : Option PasswordReset → Option PasswordReset → Prop
  | same (x : Option PasswordReset) : Ages x x
  | spent (p : PasswordReset) : Ages (some p) (some p.spent)

theorem Ages.of_some {x : Option PasswordReset} {q : PasswordReset} (h : Ages x (some q)) :
    ∃ p, x = some p ∧ p.token_hash = q.token_hash := by
  cases h with
  | same => exact ⟨q, rfl, rfl⟩
  | spent p => exact ⟨p, rfl, rfl⟩

theorem Ages.forth {p : PasswordReset} {y : Option PasswordReset} (h : Ages (some p) y) :
    ∃ q, y = some q ∧ q.token_hash = p.token_hash := by
  cases h with
  | same => exact ⟨p, rfl, rfl⟩
  | spent => exact ⟨_, rfl, rfl⟩

theorem Ages.is {x y : Option PasswordReset} (h : Ages x y) {p : PasswordReset} {S : Prop}
    (hx : ∃ q, x = some q ∧ p.Is S q) : ∃ q, y = some q ∧ p.Is S q := by
  obtain ⟨q, rfl, hp⟩ := hx
  cases h with
  | same => exact ⟨q, rfl, hp⟩
  | spent => exact ⟨_, rfl, hp.spend⟩

/-- The ways a statement may touch a reset row. -/
inductive OnResets : SqlOp Record → Prop
  | apart {q : SqlOp Record} (h : Apart password_resets.prj q) : OnResets q
  | insert (mk : Uuid → PasswordReset) :
      OnResets (.insert .tx (fun n => password_resets.inj (mk n)) password_resets.clashes)
  | spend (p : PasswordReset → Bool) :
      OnResets (.write .tx (password_resets.sel p) (password_resets.set (·.spent)))

theorem Plain.on_resets {o : Op} (h : Plain o) {q : SqlOp Record} (hq : o.statement = some q) :
    OnResets q := by
  cases h with
  | quiet h hc => cases o <;> first | exact h.elim | cases hq
  | begin | commit | rollback | select p =>
      cases hq
      exact .apart ⟨fun hm => hm.elim, fun hi => hi.elim⟩
  | session_insert new =>
      cases hq
      exact .apart (apart_insert (U := sessions) fun _ => rfl)
  | session_delete p =>
      cases hq
      exact .apart (apart_delete (U := sessions) fun _ => rfl)
  | token_revoke p =>
      cases hq
      exact .apart (apart_set (U := refresh_tokens) fun _ => rfl)
  | token_delete ex p =>
      cases hq
      exact .apart (apart_delete (U := refresh_tokens) fun _ => rfl)
  | reset_insert mk =>
      cases hq
      exact .insert mk
  | reset_spend p =>
      cases hq
      exact .spend p
  | event_insert e =>
      cases hq
      exact .apart (apart_insert (U := outbox) fun _ => rfl)

theorem Request.on_resets {Reg Cred : Type} {req : Request Reg Cred} {o : Op}
    (h : Plain o ∨ req.special o) {q : SqlOp Record} (hq : o.statement = some q) : OnResets q := by
  rcases h with h | h
  · exact h.on_resets hq
  · exact .apart (Request.special_apart (fun _ => rfl) (fun _ => rfl) (fun _ => rfl) h hq)

/-! ### What a statement does to them -/

section Steps

variable {w w' : World} {c : Crates} {o : Op} {ch : Choice} {r : o.Reply}

/-- What a statement makes of a reset row, committed and in sight: what is in sight may be spent and
committed, or given up for what is committed. -/
def Evolves (row seen row' seen' : Option PasswordReset) : Prop :=
  ((row' = row ∨ row' = seen') ∧ Ages seen seen') ∨ row' = row ∧ seen' = row

theorem worked_reset {q : SqlOp Record} {s s' : Slot Record} (h : s.Worked 0 q s')
    (hq : ∀ {old v}, q.Makes old v → Ages (password_resets.prj old) (v.bind password_resets.prj)) :
    Evolves (s.current.bind password_resets.prj) ((s.view 0).bind password_resets.prj)
      (s'.current.bind password_resets.prj) ((s'.view 0).bind password_resets.prj) := by
  cases h with
  | same => exact .inl ⟨.inl rfl, .same _⟩
  | commit =>
      rw [Slot.view_commit, Slot.current_commit]
      exact .inl ⟨.inr rfl, .same _⟩
  | rollback =>
      rw [Slot.view_rollback, Slot.current_rollback]
      exact .inr ⟨rfl, rfl⟩
  | hold hv hm =>
      rw [hv, Slot.view_of_own rfl, Slot.current_hold]
      exact .inl ⟨.inl rfl, hq hm⟩
  | settled hv hm =>
      rw [hv, Slot.view_commit, Slot.current_commit, Slot.view_of_own rfl]
      exact .inl ⟨.inr rfl, hq hm⟩

/-- What it makes of the table: each row evolves, or one row is new. -/
inductive Evolved (w w' : World) : Prop
  | evolves (h : ∀ d, Evolves (w.row password_resets d) (w.rowSeen 0 password_resets d)
      (w'.row password_resets d) (w'.rowSeen 0 password_resets d))
  | added (p : PasswordReset)
      (hfree : ∀ q ∈ w.sees 0 password_resets, password_resets.clash p q = false)
      (hrow : ∀ d, w'.row password_resets d = w.row password_resets d)
      (hseen : ∀ d, w'.rowSeen 0 password_resets d =
        if d = w.db.length then some p else w.rowSeen 0 password_resets d)

theorem Evolved.refl (h : w'.db = w.db) : Evolved w w' := by
  refine .evolves fun d => ?_
  unfold World.row World.rowSeen
  rw [h]
  exact .inl ⟨.inl rfl, .same _⟩

/-- A statement that adds no reset row. -/
theorem evolved_of_worked {q : SqlOp Record} (h : w.db.Worked 0 q w'.db)
    (hmakes : ∀ {old v}, q.Makes old v →
      Ages (password_resets.prj old) (v.bind password_resets.prj))
    (hinserts : ∀ {r : Record}, q.Inserts r → password_resets.prj r = none) : Evolved w w' := by
  refine .evolves fun d => ?_
  unfold World.row World.rowSeen
  cases hd : w.db[d]? with
  | some s =>
      obtain ⟨s', hs', hworked⟩ := h.old hd
      rw [hs']
      exact worked_reset hworked hmakes
  | none =>
      cases hd' : w'.db[d]? with
      | none => exact .inr ⟨rfl, rfl⟩
      | some s' =>
          obtain ⟨-, a, ha, hs'⟩ := h.new hd' (List.getElem?_eq_none_iff.mp hd)
          have hprj := hinserts ha
          rcases hs' with rfl | rfl
          · rw [Option.bind_some, Option.bind_some, Slot.view_of_own rfl, Slot.current_fresh]
            exact .inr ⟨rfl, hprj⟩
          · rw [Option.bind_some, Option.bind_some, Slot.view_commit, Slot.current_commit,
              Slot.view_of_own rfl]
            exact .inr ⟨hprj, hprj⟩

theorem evolved (ho : ∀ q, o.statement = some q → OnResets q)
    (hans : World.answer c 0 o ch w = some (w', r)) : Evolved w w' := by
  rcases World.answer_db hans with heq | ⟨q, out, r', hq, hdb⟩
  · exact .refl heq
  cases ho q hq with
  | apart h =>
      refine evolved_of_worked (SqlOp.answer_worked hdb) (fun hm => ?_) h.inserts
      rw [h.makes hm]
      exact .same _
  | spend p =>
      refine evolved_of_worked (SqlOp.answer_worked hdb) (fun hm => ?_) fun hi => hi.elim
      obtain ⟨a, rfl, -, rfl⟩ := makes_set hm
      exact .spent a
  | insert mk =>
      rcases SqlOp.alone_insert hdb with ⟨key, -, hfree, hdesk, -⟩ | ⟨-, -, -, ht, -⟩ | ⟨-, ht, -⟩
      · have hrows := rows_of_insert_tx (T := password_resets) hdesk
        refine .added (mk key) (fun q hq => ?_) (fun d => (hrows d).1) fun d => (hrows d).2
        obtain ⟨x, hx, hprj⟩ := List.mem_filterMap.mp hq
        have hc := hfree x hx
        rwa [password_resets.inj_of_prj hprj, Relation.clashes_inj] at hc
      · exact .refl ht
      · exact .refl ht

end Steps

/-! ### The invariants -/

/-- No two reset rows have one hash, and a committed one is in sight with its hash. -/
structure ResetsApart (w : World) : Prop where
  seen : ∀ {d : Nat} {q : PasswordReset}, w.row password_resets d = some q →
    ∃ q', w.rowSeen 0 password_resets d = some q' ∧ q'.token_hash = q.token_hash
  apart : ∀ {d d' : Nat} {q q' : PasswordReset}, w.rowSeen 0 password_resets d = some q →
    w.rowSeen 0 password_resets d' = some q' → q.token_hash = q'.token_hash → d = d'

/-- At place `d` lies this reset row, spent or not, and can no longer be redeemed if `S`. -/
structure Outstanding (d : Nat) (p : PasswordReset) (S : Prop) (w : World) : Prop where
  row : ∃ q, w.row password_resets d = some q ∧ p.Is S q
  seen : ∃ q, w.rowSeen 0 password_resets d = some q ∧ p.Is S q

section Invariants

variable {w w' : World} {c : Crates} {admits : World → Op → Choice → Prop}

theorem rowSeen_length {d : Nat} {q : PasswordReset}
    (h : w.rowSeen 0 password_resets d = some q) : d ≠ w.db.length := by
  rintro rfl
  rw [World.rowSeen, List.getElem?_eq_none (Nat.le_refl _)] at h
  cases h

theorem ResetsApart.evolved (h : ResetsApart w) (ht : Evolved w w') : ResetsApart w' := by
  cases ht with
  | evolves hevolves =>
      have hback : ∀ {d q}, w'.rowSeen 0 password_resets d = some q →
          ∃ p, w.rowSeen 0 password_resets d = some p ∧ p.token_hash = q.token_hash := by
        intro d q hq
        rcases hevolves d with ⟨-, hage⟩ | ⟨-, heq⟩
        · rw [hq] at hage
          exact hage.of_some
        · exact h.seen (heq.symm.trans hq)
      refine ⟨fun {d q} hq => ?_, fun {d d' q q'} hq hq' hhash => ?_⟩
      · rcases hevolves d with ⟨hrow | hrow, hage⟩ | ⟨hrow, hseen⟩
        · obtain ⟨p, hp, hhash⟩ := h.seen (hrow.symm.trans hq)
          rw [hp] at hage
          obtain ⟨p', hp', hhash'⟩ := hage.forth
          exact ⟨p', hp', hhash'.trans hhash⟩
        · exact ⟨q, hrow.symm.trans hq, rfl⟩
        · exact ⟨q, hseen.trans (hrow.symm.trans hq), rfl⟩
      · obtain ⟨p, hp, hph⟩ := hback hq
        obtain ⟨p', hp', hph'⟩ := hback hq'
        exact h.apart hp hp' (by rw [hph, hph', hhash])
  | added p hfree hrow hseen =>
      have hother : ∀ {d q}, w.rowSeen 0 password_resets d = some q →
          p.token_hash ≠ q.token_hash := by
        intro d q hq hhash
        have hclash := hfree q (mem_sees_iff.mpr ⟨d, hq⟩)
        simp [password_resets, hhash] at hclash
      have hcases : ∀ {d q}, w'.rowSeen 0 password_resets d = some q →
          d = w.db.length ∧ q = p ∨ w.rowSeen 0 password_resets d = some q := by
        intro d q hq
        rw [hseen] at hq
        split at hq
        · rename_i hd
          exact .inl ⟨hd, (Option.some.inj hq).symm⟩
        · exact .inr hq
      refine ⟨fun {d q} hq => ?_, fun {d d' q q'} hq hq' hhash => ?_⟩
      · rw [hrow] at hq
        obtain ⟨q', hq', hhash⟩ := h.seen hq
        exact ⟨q', by rw [hseen, if_neg (rowSeen_length hq'), hq'], hhash⟩
      · rcases hcases hq with ⟨hd, rfl⟩ | hold
        · rcases hcases hq' with ⟨hd', -⟩ | hold'
          · rw [hd, hd']
          · exact absurd hhash (hother hold')
        · rcases hcases hq' with ⟨-, rfl⟩ | hold'
          · exact absurd hhash.symm (hother hold)
          · exact h.apart hold hold' hhash

theorem Outstanding.evolved {d : Nat} {p : PasswordReset} {S : Prop}
    (h : Outstanding d p S w) (ht : Evolved w w') : Outstanding d p S w' := by
  cases ht with
  | evolves hevolves =>
      rcases hevolves d with ⟨hrow, hage⟩ | ⟨hrow, hseen⟩
      · have hseen' := hage.is h.seen
        rcases hrow with hrow | hrow
        · exact ⟨by rw [hrow]; exact h.row, hseen'⟩
        · exact ⟨by rw [hrow]; exact hseen', hseen'⟩
      · exact ⟨by rw [hrow]; exact h.row, by rw [hseen]; exact h.row⟩
  | added _ hfree hrow hseen =>
      obtain ⟨q, hq, hq'⟩ := h.seen
      exact ⟨by rw [hrow]; exact h.row, q, by rw [hseen, if_neg (rowSeen_length hq), hq], hq'⟩

/-- Between requests it is enough to look at the committed row. -/
theorem Outstanding.of_row (hset : w.Settled 0) {d : Nat} {p q : PasswordReset} {S : Prop}
    (hq : w.row password_resets d = some q) (h : p.Is S q) : Outstanding d p S w :=
  ⟨⟨q, hq, h⟩, q, (hset.steady password_resets d).trans hq, h⟩

theorem Outstanding.mono {d : Nat} {p : PasswordReset} {S S' : Prop} (h : Outstanding d p S w)
    (hS : S' → S) : Outstanding d p S' w := by
  obtain ⟨⟨q, hq, his⟩, q', hq', his'⟩ := h
  exact ⟨⟨q, hq, his.mono hS⟩, q', hq', his'.mono hS⟩

theorem Outstanding.of_is {d : Nat} {p q : PasswordReset} {S S' : Prop} (h : Outstanding d q S w)
    (hpq : p.Is S' q) : Outstanding d p S w := by
  obtain ⟨⟨q₁, hq₁, his₁⟩, q₂, hq₂, his₂⟩ := h
  exact ⟨⟨q₁, hq₁, hpq.trans his₁⟩, q₂, hq₂, hpq.trans his₂⟩

/-- What a walk through a request keeps. -/
theorem resets_keep (c : Crates) (admits : World → Op → Choice → Prop) {α : Type} {p : Handler α}
    (hp : p.Uses fun o => ∀ q, o.statement = some q → OnResets q) :
    Keeps c 0 admits ResetsApart p ∧
      ∀ d r S, Keeps c 0 admits (Outstanding d r S) p :=
  ⟨keeps_of_uses hp fun _ _ _ _ _ ho _ hans h => h.evolved (evolved ho hans),
    fun _ _ _ => keeps_of_uses hp fun _ _ _ _ _ ho _ hans h => h.evolved (evolved ho hans)⟩

theorem Request.resets_keep {Reg Cred : Type} (req : Request Reg Cred) (c : Crates)
    (admits : World → Op → Choice → Prop) (jwt_svc : JwtService) (wa : Webauthn Reg Cred) :
    Keeps c 0 admits ResetsApart (req.handler c jwt_svc wa) ∧
      ∀ d r S, Keeps c 0 admits (Outstanding d r S) (req.handler c jwt_svc wa) :=
  Authnz.resets_keep c admits
    (uses_mono (req.uses c jwt_svc wa) fun _ ho _ hq => Request.on_resets ho hq)

end Invariants

/-! ### What a request does to them -/

/-- Nothing fails, the clock shows this, and the middleware finds this identity, or none. -/
structure Undisturbing (now : Time) (who : Option Identity) (w : World) (o : Op) (ch : Choice) :
    Prop where
  who : LetInAs who w o ch
  nofail : ch = .fail → ∃ cookie, o = .authenticate cookie
  clock : ∀ t, ch = .time t → t = now

section Requests

variable {w w' : World} {c : Crates}

/-- What becomes of the reset rows when one is redeemed. -/
theorem resets_of_reset {p : PasswordReset → Bool} {q : User → Bool} {f : User → User}
    (h : w'.places = (w.places.map (Desk.rewrite (password_resets.sel p)
      (password_resets.set (·.spent)))).map (Desk.rewrite (users.sel q) (users.set f))) (d : Nat) :
    w'.row password_resets d =
      (w.row password_resets d).map fun r => if p r then r.spent else r := by
  rw [row_of_places, row_of_places, h, List.getElem?_map, List.getElem?_map]
  cases w.places[d]? with
  | none => rfl
  | some x =>
      refine (prj_rewrite_other (fun _ => rfl) q (fun r y hy => ?_) _).trans
        (prj_rewrite_set p (·.spent) x)
      rw [Relation.set_inj] at hy
      cases hy
      rfl

/-- An accepted token was that of a row to redeem, which can no longer be redeemed then. -/
theorem confirm_password_reset_accepts (hset : w.Settled 0) {now : Time} {who : Option Identity}
    (payload : PasswordResetConfirmRequest) :
    Ends c 0 (Undisturbing now who) (handlers.confirm_password_reset c payload) w fun w' resp =>
      resp.status = 200 → ∃ d q, w.row password_resets d = some q ∧
        Redeemable (hash_token c payload.token) now q = true ∧ Outstanding d q True w' := by
  refine ends_run (endsE_mono (confirm_password_reset_redeems hset _) ?_ ?_)
  · intro w₁ user_id hpost
    obtain ⟨⟨salt, t, ht, ⟨q, hq, hred, _⟩, hplaces⟩, _, hset₁⟩ := hpost
    obtain rfl := ht.clock _ rfl
    obtain ⟨d, hd⟩ := mem_sees_iff.mp hq
    rw [hset.steady password_resets d] at hd
    have hspent : Outstanding d q True w₁ := by
      refine .of_row hset₁ (q := q.spent) ?_ ⟨.inr rfl, fun _ hused => nomatch hused⟩
      rw [resets_of_reset hplaces, hd]
      exact congrArg some (if_pos hred)
    have hafter : Orderly c 0 Plain (after_reset user_id) := after_reset_orderly user_id
    have hkeep := (resets_keep c (Undisturbing t who)
      (uses_mono hafter.uses fun _ ho _ hq => ho.on_resets hq)).2 d q True
    exact ends_mono (hkeep w₁ hspent) fun _ _ h _ => ⟨d, q, hd, hred, h⟩
  · intro w₁ e _
    exact ends_ret fun h => absurd h (auth_error_status e)

end Requests

/-! ### A record without failures -/

section Record

variable {Reg Cred : Type} (c : Crates) (jwt_svc : JwtService) (wa : Webauthn Reg Cred)

/-- The requests a service over these rows has served so far, one after the other and without
failures; cache entries expire in between, and the clock goes on. -/
inductive Undisturbed (rows : List Record) : List (Served Reg Cred) → Time → World → Prop
  | start (now : Time) : Undisturbed rows [] now (World.of rows)
  | serve {l : List (Served Reg Cred)} {now : Time} {w : World} (h : Undisturbed rows l now w)
      (st : Served Reg Cred) (hbefore : st.before = w) (htime : now ≤ st.time)
      (hrun : Prog.Exec (World.answer c) 0 (Undisturbing st.time st.who)
        (st.req.handler c jwt_svc wa) st.before st.resp st.after) :
      Undisturbed rows (l ++ [st]) st.time st.after
  | expire {l : List (Served Reg Cred)} {now : Time} {w : World} (h : Undisturbed rows l now w)
      (e : Expiry) : Undisturbed rows l now (w.expire e)
  | wait {l : List (Served Reg Cred)} {now : Time} {w : World} (h : Undisturbed rows l now w)
      {now' : Time} (htime : now ≤ now') : Undisturbed rows l now' w

end Record

namespace Served

variable {Reg Cred : Type}

/-- The step is a request for a reset, and adds this row. -/
def Requests (st : Served Reg Cred) (p : PasswordReset) : Prop :=
  match st.req with
  | .request_password_reset _ =>
      ∃ d, st.before.row password_resets d = none ∧ st.after.row password_resets d = some p
  | _ => False

/-- The step presents a token of this hash to `confirm_password_reset`. -/
def Presents (c : Crates) (st : Served Reg Cred) (hash : String) : Prop :=
  match st.req with
  | .confirm_password_reset payload => hash_token c payload.token = hash
  | _ => False

/-- And the token is accepted. -/
def Accepts (c : Crates) (st : Served Reg Cred) (hash : String) : Prop :=
  st.Presents c hash ∧ st.resp.status = 200

/-- The step sets the password of `u`: by a token of theirs that is accepted, or by
`change_password` with a new password that is strong enough and the current one. -/
def SetsPassword (c : Crates) (st : Served Reg Cred) (u : Uuid) : Prop :=
  match st.req with
  | .confirm_password_reset payload => st.resp.status = 200 ∧
      ∃ q ∈ st.before.rows password_resets, q.token_hash = hash_token c payload.token ∧
        q.user_id = u
  | .change_password _ req _ => ¬ c.zxcvbn_score req.new_password < 3 ∧
      (∃ session, st.who = some session ∧ session.sub = u) ∧
      ∃ a ∈ st.before.rows users, a.id = u ∧
        c.bcrypt_verify req.current_password a.password_hash = some true
  | _ => False

/-- Before the step, no reset of `u` could be redeemed but the one whose token it presents. -/
def ClosesAll (c : Crates) (st : Served Reg Cred) (u : Uuid) : Prop :=
  ∀ q ∈ st.before.rows password_resets, q.user_id = u → q.used = some false →
    st.time < q.expires_at → st.Presents c q.token_hash

end Served

/-- No token issued before a step that set the password of its user is accepted after it. -/
def OlderClosed {Reg Cred : Type} (c : Crates) (l : List (Served Reg Cred)) : Prop :=
  ∀ ⦃i j k : Nat⦄, i < j → j < k → ∀ ⦃sᵢ sⱼ sₖ : Served Reg Cred⦄, l[i]? = some sᵢ →
    l[j]? = some sⱼ → l[k]? = some sₖ → ∀ ⦃p : PasswordReset⦄, sᵢ.Requests p →
      sⱼ.SetsPassword c p.user_id → ¬ sₖ.Accepts c p.token_hash

section Closing

variable {Reg Cred : Type} {c : Crates} {jwt_svc : JwtService} {wa : Webauthn Reg Cred}
  {rows : List Record} {l : List (Served Reg Cred)} {now : Time} {w : World}

/-- A later step has set the password of this reset's user, before the reset expired. -/
def Overtaken (c : Crates) (l : List (Served Reg Cred)) (i : Nat) (p : PasswordReset) : Prop :=
  ∃ j sⱼ, i < j ∧ l[j]? = some sⱼ ∧ sⱼ.SetsPassword c p.user_id ∧ sⱼ.time < p.expires_at

/-- What holds of the record and the resets between requests. -/
structure Closing (c : Crates) (l : List (Served Reg Cred)) (now : Time) (w : World) : Prop where
  settled : w.Settled 0
  apart : ResetsApart w
  times : ∀ st ∈ l, st.time ≤ now
  issued : ∀ ⦃i : Nat⦄ ⦃sᵢ : Served Reg Cred⦄, l[i]? = some sᵢ → ∀ ⦃p : PasswordReset⦄,
    sᵢ.Requests p → ∃ d, Outstanding d p (Overtaken c l i p) w
  closed : OlderClosed c l

theorem ResetsApart.of (h : UniqueRows password_resets rows) : ResetsApart (World.of rows) := by
  have hst := (settled_of 0 rows).steady password_resets
  refine ⟨fun {d q} hq => ⟨q, (hst d).trans hq, rfl⟩, fun {d d' q q'} hq hq' hhash => ?_⟩
  rw [hst] at hq hq'
  exact h _ _ _ _ (row_of_iff.mp hq) (row_of_iff.mp hq') (by simp [password_resets, hhash])

/-- Two rows of one hash in one place. -/
theorem ResetsApart.same_row (h : ResetsApart w) (hset : w.Settled 0) {d d' : Nat}
    {q q' : PasswordReset} (hq : w.row password_resets d = some q)
    (hq' : w.row password_resets d' = some q') (hhash : q.token_hash = q'.token_hash) :
    d = d' ∧ q = q' := by
  have hst := hset.steady password_resets
  obtain rfl := h.apart ((hst d).trans hq) ((hst d').trans hq') hhash
  rw [hq] at hq'
  exact ⟨rfl, Option.some.inj hq'⟩

theorem redeemable_open {hash : String} {now : Time} {q : PasswordReset}
    (h : Redeemable hash now q = true) : q.used = some false ∧ now < q.expires_at := by
  simp only [Redeemable, Bool.and_eq_true, beq_iff_eq, decide_eq_true_eq] at h
  exact ⟨h.1.2, h.2⟩

/-- What an accepted token shows of the states around the step. -/
theorem accepted_row (hset : w.Settled 0) {st : Served Reg Cred} (hbefore : st.before = w)
    (hrun : Prog.Exec (World.answer c) 0 (Undisturbing st.time st.who)
      (st.req.handler c jwt_svc wa) st.before st.resp st.after) {hash : String}
    (hacc : st.Accepts c hash) :
    ∃ d q, w.row password_resets d = some q ∧ q.token_hash = hash ∧ q.used = some false ∧
      st.time < q.expires_at ∧ Outstanding d q True st.after := by
  obtain ⟨req, who, time, resp, before, after⟩ := st
  obtain rfl : before = w := hbefore
  cases req with
  | confirm_password_reset payload =>
      obtain ⟨hhash, hok⟩ := hacc
      obtain ⟨d, q, hq, hred, hout⟩ :=
        confirm_password_reset_accepts hset payload resp after hrun hok
      obtain ⟨hused, hexp⟩ := redeemable_open hred
      exact ⟨d, q, hq, (redeemable_hash hred).trans hhash, hused, hexp, hout⟩
  | _ => exact hacc.1.elim

theorem Served.SetsPassword.ok {st : Served Reg Cred} {u : Uuid} {hash : String}
    (h : st.SetsPassword c u) (hpresents : st.Presents c hash) : st.resp.status = 200 := by
  obtain ⟨req, who, time, resp, before, after⟩ := st
  cases req with
  | confirm_password_reset payload => exact h.1
  | _ => exact hpresents.elim

theorem Served.Requests.row {st : Served Reg Cred} {p : PasswordReset} (h : st.Requests p) :
    ∃ d, st.after.row password_resets d = some p := by
  obtain ⟨req, who, time, resp, before, after⟩ := st
  cases req with
  | request_password_reset req =>
      obtain ⟨d, -, hd⟩ := h
      exact ⟨d, hd⟩
  | _ => exact h.elim

/-- A step that sets a password, and closes all the resets of its user, closes this one. -/
theorem outstanding_closed (hset : w.Settled 0) (hapart : ResetsApart w) {st : Served Reg Cred}
    (hbefore : st.before = w)
    (hrun : Prog.Exec (World.answer c) 0 (Undisturbing st.time st.who)
      (st.req.handler c jwt_svc wa) st.before st.resp st.after) {p : PasswordReset}
    (hsets : st.SetsPassword c p.user_id)
    (hall : st.ClosesAll c p.user_id) {d : Nat} {S : Prop} (hout : Outstanding d p S w) :
    Outstanding d p (st.time < p.expires_at) st.after := by
  have hkeep := (st.req.resets_keep c (Undisturbing st.time st.who) jwt_svc wa).2 d p
  obtain ⟨q, hq, his⟩ := hout.row
  by_cases hopen : q.used = some false ∧ st.time < q.expires_at
  · have hmem : q ∈ st.before.rows password_resets := by
      rw [hbefore]
      exact mem_rows_iff.mpr ⟨d, hq⟩
    have hpresents := hall q hmem his.user hopen.1 hopen.2
    obtain ⟨d', q', hq', hhash, -, -, hout'⟩ :=
      accepted_row hset hbefore hrun ⟨hpresents, hsets.ok hpresents⟩
    obtain ⟨rfl, rfl⟩ := hapart.same_row hset hq hq' hhash.symm
    exact (hout'.of_is his).mono fun _ => trivial
  · have hclosed : Outstanding d p (st.time < p.expires_at) st.before := by
      rw [hbefore]
      refine .of_row hset hq ⟨his.same, fun hexp hused => hopen ⟨hused, ?_⟩⟩
      rw [his.expires]
      exact hexp
    exact hkeep _ st.before hclosed _ _ hrun

theorem getElem?_snoc {α : Type} {l : List α} {a b : α} {i : Nat} (h : (l ++ [a])[i]? = some b) :
    l[i]? = some b ∨ i = l.length ∧ b = a := by
  have hlt := getElem?_lt h
  rw [List.length_append, List.length_singleton] at hlt
  rcases Nat.lt_or_ge i l.length with hi | hi
  · rw [List.getElem?_append_left hi] at h
    exact .inl h
  · obtain rfl : i = l.length := by omega
    rw [List.getElem?_concat_length] at h
    exact .inr ⟨rfl, (Option.some.inj h).symm⟩

theorem Overtaken.snoc {st : Served Reg Cred} {i : Nat} {p : PasswordReset}
    (h : Overtaken c (l ++ [st]) i p) :
    Overtaken c l i p ∨ i < l.length ∧ st.SetsPassword c p.user_id ∧ st.time < p.expires_at := by
  obtain ⟨j, sⱼ, hij, hj, hsets, hexp⟩ := h
  rcases getElem?_snoc hj with hj | ⟨rfl, rfl⟩
  · exact .inl ⟨j, sⱼ, hij, hj, hsets, hexp⟩
  · exact .inr ⟨hij, hsets, hexp⟩

/-- One step of the record. -/
theorem Closing.serve (hw : Closing c l now w) {st : Served Reg Cred} (hbefore : st.before = w)
    (htime : now ≤ st.time)
    (hrun : Prog.Exec (World.answer c) 0 (Undisturbing st.time st.who)
      (st.req.handler c jwt_svc wa) st.before st.resp st.after)
    (hall : ∀ u, st.SetsPassword c u → st.ClosesAll c u) :
    Closing c (l ++ [st]) st.time st.after := by
  have horderly : Orderly c 0 _ (st.req.handler c jwt_svc wa) := st.req.orderly jwt_svc wa
  have hkeep := st.req.resets_keep c (Undisturbing st.time st.who) jwt_svc wa
  have hset' : st.after.Settled 0 := by
    refine horderly.settles ?_ _ _ hrun
    rw [hbefore]
    exact hw.settled
  refine ⟨hset', ?_, fun st' hst' => ?_, fun i sᵢ hi p hreq => ?_,
    fun i j k hij hjk sᵢ sⱼ sₖ hi hj hk p hreq hsets hacc => ?_⟩
  · refine hkeep.1 st.before ?_ _ _ hrun
    rw [hbefore]
    exact hw.apart
  · rcases List.mem_append.mp hst' with hst' | hst'
    · exact Int.le_trans (hw.times st' hst') htime
    · rcases List.mem_singleton.mp hst' with rfl
      exact Int.le_refl _
  · rcases getElem?_snoc hi with hi | ⟨rfl, rfl⟩
    · obtain ⟨d, hout⟩ := hw.issued hi hreq
      refine ⟨d, ?_⟩
      by_cases hnew : st.SetsPassword c p.user_id ∧ st.time < p.expires_at
      · exact (outstanding_closed hw.settled hw.apart hbefore hrun hnew.1 (hall _ hnew.1) hout).mono
          fun _ => hnew.2
      · have hkept := (hkeep.2 d p _) st.before (by rw [hbefore]; exact hout) _ _ hrun
        exact hkept.mono fun h => h.snoc.resolve_right fun h => hnew h.2
    · obtain ⟨d, hd⟩ := hreq.row
      refine ⟨d, .of_row hset' hd ⟨.inl rfl, fun ⟨j, sⱼ, hij, hj, _⟩ => ?_⟩⟩
      have hlt := getElem?_lt hj
      rw [List.length_append, List.length_singleton] at hlt
      omega
  · have hlt := getElem?_lt hk
    rw [List.length_append, List.length_singleton] at hlt
    have hiₗ := (getElem?_snoc hi).resolve_right fun h => by omega
    have hjₗ := (getElem?_snoc hj).resolve_right fun h => by omega
    rcases getElem?_snoc hk with hkₗ | ⟨-, rfl⟩
    · exact hw.closed hij hjk hiₗ hjₗ hkₗ hreq hsets hacc
    · obtain ⟨d, hout⟩ := hw.issued hiₗ hreq
      obtain ⟨q, hq, his⟩ := hout.row
      obtain ⟨d', q', hq', hhash, hused, hexp, -⟩ := accepted_row hw.settled hbefore hrun hacc
      obtain ⟨rfl, rfl⟩ := hw.apart.same_row hw.settled hq hq' (his.hash.trans hhash.symm)
      refine his.closed ⟨j, sⱼ, hij, hjₗ, hsets, ?_⟩ hused
      have htimeⱼ := hw.times sⱼ (List.mem_of_getElem? hjₗ)
      rw [← his.expires]
      exact Int.lt_of_le_of_lt (Int.le_trans htimeⱼ htime) hexp

theorem Undisturbed.closing (hunique : UniqueRows password_resets rows)
    (h : Undisturbed c jwt_svc wa rows l now w)
    (hall : ∀ st ∈ l, ∀ u, st.SetsPassword c u → st.ClosesAll c u) : Closing c l now w := by
  induction h with
  | start now =>
      exact ⟨settled_of 0 rows, .of hunique, fun _ h => (nomatch h), fun _ _ h => (nomatch h),
        fun _ _ _ _ _ _ _ _ h => (nomatch h)⟩
  | serve h st hbefore htime hrun ih =>
      exact (ih fun st hst => hall st (List.mem_append_left _ hst)).serve hbefore htime hrun
        (hall st List.mem_concat_self)
  | @expire l now w h e ih =>
      obtain ⟨hset, hapart, htimes, hissued, hclosed⟩ := ih hall
      have hevolved : Evolved w (w.expire e) := .refl (World.expire_db e w)
      refine ⟨?_, hapart.evolved hevolved, htimes, fun i sᵢ hi p hreq => ?_, hclosed⟩
      · rw [World.Settled, World.expire_db]
        exact hset
      · obtain ⟨d, hout⟩ := hissued hi hreq
        exact ⟨d, hout.evolved hevolved⟩
  | wait h htime ih =>
      obtain ⟨hset, hapart, htimes, hissued, hclosed⟩ := ih hall
      exact ⟨hset, hapart, fun st hst => Int.le_trans (htimes st hst) htime, hissued, hclosed⟩

end Closing

section Main

variable {Reg Cred : Type} {c : Crates} {jwt_svc : JwtService} {wa : Webauthn Reg Cred}
  {rows : List Record} {l : List (Served Reg Cred)} {now : Time} {w : World}

/-- **Older reset tokens are closed** in every run whose steps, where they set a password, find no
other reset of its user that could be redeemed. -/
theorem older_tokens_closed (hunique : UniqueRows password_resets rows)
    (h : Undisturbed c jwt_svc wa rows l now w)
    (hall : ∀ st ∈ l, ∀ u, st.SetsPassword c u → st.ClosesAll c u) : OlderClosed c l :=
  (h.closing hunique hall).closed

end Main

/-! ### Alice's tokens -/

/-- Alice's account, and nothing else. -/
def only_alice : List Record := [.user (sample_user "correct horse")]

/-- Nothing fails, the clock shows this, and nobody is signed in. -/
def undisturbing (now : Time) (w : World) (o : Op) (ch : Choice) : Bool :=
  decide (LetInAs none w o ch) && match ch with
    | .fail => false
    | .time t => t == now
    | _ => true

theorem undisturbing_of {now : Time} {w : World} {o : Op} {ch : Choice}
    (h : undisturbing now w o ch = true) : Undisturbing now none w o ch := by
  obtain ⟨hwho, hrest⟩ := Bool.and_eq_true_iff.mp h
  refine ⟨of_decide_eq_true hwho, fun hfail => ?_, fun t ht => ?_⟩
  · subst hfail
    cases hrest
  · subst ht
    exact beq_iff_eq.mp hrest

/-- A reset sent to Alice at this time. -/
def reset_of_alice (id : Uuid) (raw : String) (now : Time) : PasswordReset :=
  ⟨id, 7, hash_token sample_crates raw, now + minutes 30, some false⟩

theorem only_alice_unasked : UniqueRows password_resets only_alice := by
  intro d d' a a' hd
  rcases d with _ | d
  · cases hd
  · cases hd

/-- Alice asks for a reset and lets it expire, asks for another and redeems that; then the token of
the first is not accepted. -/
theorem older_tokens_closed_for_alice : ∃ (l : List (Served Passkey (List UInt8))) (w : World)
    (s₀ s₁ s₂ s₃ : Served Passkey (List UInt8)) (p : PasswordReset),
    Undisturbed sample_crates sample_jwt sample_webauthn only_alice l (minutes 31) w ∧
      l = [s₀, s₁, s₂, s₃] ∧ s₀.Requests p ∧ s₂.SetsPassword sample_crates p.user_id ∧
        ¬ s₂.Presents sample_crates p.token_hash ∧ s₃.Presents sample_crates p.token_hash ∧
          ¬ s₃.Accepts sample_crates p.token_hash := by
  have hruns : ∃ w₁ r₁, Prog.exec? (World.answer sample_crates) 0 (undisturbing 0)
      [.go, .bytes (List.replicate 32 1), .time 0, .go, .key 11, .key 12, .go, .go]
      (handlers.request_password_reset sample_crates ⟨"alice@example.com"⟩) (World.of only_alice) =
        some (r₁, w₁) ∧
      ∃ w₂ r₂, Prog.exec? (World.answer sample_crates) 0 (undisturbing (minutes 31))
        [.go, .bytes (List.replicate 32 2), .time (minutes 31), .go, .key 13, .key 14, .go, .go]
        (handlers.request_password_reset sample_crates ⟨"alice@example.com"⟩) w₁ = some (r₂, w₂) ∧
      ∃ w₃ r₃, Prog.exec? (World.answer sample_crates) 0 (undisturbing (minutes 31))
        [.time (minutes 31), .go, .go, .number 0, .go, .go, .go, .sessions [], .go]
        (handlers.confirm_password_reset sample_crates
          ⟨token_of 2, "violet ladder engine cactus"⟩) w₂ = some (r₃, w₃) ∧
      ∃ w₄ r₄, Prog.exec? (World.answer sample_crates) 0 (undisturbing (minutes 31))
        [.time (minutes 31), .go, .go, .go]
        (handlers.confirm_password_reset sample_crates
          ⟨token_of 1, "correct horse battery staple"⟩) w₃ = some (r₄, w₄) ∧
      w₁.row password_resets 1 = some (reset_of_alice 11 (token_of 1) 0) ∧
        w₂.rows password_resets =
          [reset_of_alice 11 (token_of 1) 0, reset_of_alice 13 (token_of 2) (minutes 31)] ∧
            r₃.status = 200 ∧ r₄.status = 401 :=
    ⟨_, _, rfl, _, _, rfl, _, _, rfl, _, _, rfl, rfl, rfl, rfl, rfl⟩
  obtain ⟨w₁, r₁, h₁, w₂, r₂, h₂, w₃, r₃, h₃, w₄, r₄, h₄, hrow, hrows, hok₃, hno₄⟩ := hruns
  have hexec₁ := (Prog.exec_of_exec? h₁).mono fun _ _ _ h => undisturbing_of h
  have hexec₂ := (Prog.exec_of_exec? h₂).mono fun _ _ _ h => undisturbing_of h
  have hexec₃ := (Prog.exec_of_exec? h₃).mono fun _ _ _ h => undisturbing_of h
  have hexec₄ := (Prog.exec_of_exec? h₄).mono fun _ _ _ h => undisturbing_of h
  let s₀ : Served Passkey (List UInt8) :=
    ⟨.request_password_reset ⟨"alice@example.com"⟩, none, 0, r₁, World.of only_alice, w₁⟩
  let s₁ : Served Passkey (List UInt8) :=
    ⟨.request_password_reset ⟨"alice@example.com"⟩, none, minutes 31, r₂, w₁, w₂⟩
  let s₂ : Served Passkey (List UInt8) :=
    ⟨.confirm_password_reset ⟨token_of 2, "violet ladder engine cactus"⟩, none, minutes 31, r₃, w₂,
      w₃⟩
  let s₃ : Served Passkey (List UInt8) :=
    ⟨.confirm_password_reset ⟨token_of 1, "correct horse battery staple"⟩, none, minutes 31, r₄, w₃,
      w₄⟩
  have hstart : Undisturbed sample_crates sample_jwt sample_webauthn only_alice [] 0
      (World.of only_alice) := .start 0
  have hlater : (0 : Time) ≤ minutes 31 := by decide
  have hexpired : ¬ minutes 31 < (reset_of_alice 11 (token_of 1) 0).expires_at := by decide
  have hother : hash_token sample_crates (token_of 2) ≠
      (reset_of_alice 11 (token_of 1) 0).token_hash := by decide
  have hrun := (((hstart.serve s₀ rfl (Int.le_refl 0) hexec₁).serve s₁ rfl hlater
    hexec₂).serve s₂ rfl (Int.le_refl _) hexec₃).serve s₃ rfl (Int.le_refl _) hexec₄
  have hreq : s₀.Requests (reset_of_alice 11 (token_of 1) 0) := ⟨1, rfl, hrow⟩
  have hsets : s₂.SetsPassword sample_crates 7 := by
    refine ⟨hok₃, reset_of_alice 13 (token_of 2) (minutes 31), ?_, rfl, rfl⟩
    change _ ∈ w₂.rows password_resets
    rw [hrows]
    exact List.mem_cons_of_mem _ (List.mem_singleton_self _)
  refine ⟨_, w₄, s₀, s₁, s₂, s₃, _, hrun, rfl, hreq, hsets, hother, rfl, ?_⟩
  refine older_tokens_closed only_alice_unasked hrun (fun st hst u hset => ?_) (i := 0) (j := 2)
    (k := 3) (by decide) (by decide) rfl rfl rfl hreq hsets
  simp only [List.nil_append, List.mem_cons, List.not_mem_nil, or_false, List.cons_append] at hst
  rcases hst with rfl | rfl | rfl | rfl
  · exact hset.elim
  · exact hset.elim
  · intro q hq _ _ hlive
    change q ∈ w₂.rows password_resets at hq
    rw [hrows] at hq
    rcases List.mem_cons.mp hq with rfl | hq
    -- the first has expired
    · exact absurd hlive hexpired
    · rw [List.mem_singleton.mp hq]
      rfl
  · have hno : r₄.status = 200 := hset.1
    rw [hno₄] at hno
    cases hno

/-- Alice asks for two resets and redeems the second; then the token of the first, which is older, is
accepted. -/
theorem older_token_accepted : ∃ (l : List (Served Passkey (List UInt8))) (w : World),
    Undisturbed sample_crates sample_jwt sample_webauthn only_alice l 0 w ∧
      UniqueRows password_resets only_alice ∧ ¬ OlderClosed sample_crates l := by
  have hruns : ∃ w₁ r₁, Prog.exec? (World.answer sample_crates) 0 (undisturbing 0)
      [.go, .bytes (List.replicate 32 1), .time 0, .go, .key 11, .key 12, .go, .go]
      (handlers.request_password_reset sample_crates ⟨"alice@example.com"⟩) (World.of only_alice) =
        some (r₁, w₁) ∧
      ∃ w₂ r₂, Prog.exec? (World.answer sample_crates) 0 (undisturbing 0)
        [.go, .bytes (List.replicate 32 2), .time 0, .go, .key 13, .key 14, .go, .go]
        (handlers.request_password_reset sample_crates ⟨"alice@example.com"⟩) w₁ = some (r₂, w₂) ∧
      ∃ w₃ r₃, Prog.exec? (World.answer sample_crates) 0 (undisturbing 0)
        [.time 0, .go, .go, .number 0, .go, .go, .go, .sessions [], .go]
        (handlers.confirm_password_reset sample_crates
          ⟨token_of 2, "violet ladder engine cactus"⟩) w₂ = some (r₃, w₃) ∧
      ∃ w₄ r₄, Prog.exec? (World.answer sample_crates) 0 (undisturbing 0)
        [.time 0, .go, .go, .number 0, .go, .go, .go, .sessions [], .go]
        (handlers.confirm_password_reset sample_crates
          ⟨token_of 1, "correct horse battery staple"⟩) w₃ = some (r₄, w₄) ∧
      w₁.row password_resets 1 = some (reset_of_alice 11 (token_of 1) 0) ∧
        w₂.rows password_resets =
          [reset_of_alice 11 (token_of 1) 0, reset_of_alice 13 (token_of 2) 0] ∧
            r₃.status = 200 ∧ r₄.status = 200 :=
    ⟨_, _, rfl, _, _, rfl, _, _, rfl, _, _, rfl, rfl, rfl, rfl, rfl⟩
  obtain ⟨w₁, r₁, h₁, w₂, r₂, h₂, w₃, r₃, h₃, w₄, r₄, h₄, hrow, hrows, hok₃, hok₄⟩ := hruns
  have hexec₁ := (Prog.exec_of_exec? h₁).mono fun _ _ _ h => undisturbing_of h
  have hexec₂ := (Prog.exec_of_exec? h₂).mono fun _ _ _ h => undisturbing_of h
  have hexec₃ := (Prog.exec_of_exec? h₃).mono fun _ _ _ h => undisturbing_of h
  have hexec₄ := (Prog.exec_of_exec? h₄).mono fun _ _ _ h => undisturbing_of h
  let s₀ : Served Passkey (List UInt8) :=
    ⟨.request_password_reset ⟨"alice@example.com"⟩, none, 0, r₁, World.of only_alice, w₁⟩
  let s₁ : Served Passkey (List UInt8) :=
    ⟨.request_password_reset ⟨"alice@example.com"⟩, none, 0, r₂, w₁, w₂⟩
  let s₂ : Served Passkey (List UInt8) :=
    ⟨.confirm_password_reset ⟨token_of 2, "violet ladder engine cactus"⟩, none, 0, r₃, w₂, w₃⟩
  let s₃ : Served Passkey (List UInt8) :=
    ⟨.confirm_password_reset ⟨token_of 1, "correct horse battery staple"⟩, none, 0, r₄, w₃, w₄⟩
  have hstart : Undisturbed sample_crates sample_jwt sample_webauthn only_alice [] 0
      (World.of only_alice) := .start 0
  have hrun := (((hstart.serve s₀ rfl (Int.le_refl 0) hexec₁).serve s₁ rfl (Int.le_refl 0)
    hexec₂).serve s₂ rfl (Int.le_refl 0) hexec₃).serve s₃ rfl (Int.le_refl 0) hexec₄
  have hreq : s₀.Requests (reset_of_alice 11 (token_of 1) 0) := ⟨1, rfl, hrow⟩
  have hsets : s₂.SetsPassword sample_crates 7 := by
    refine ⟨hok₃, reset_of_alice 13 (token_of 2) 0, ?_, rfl, rfl⟩
    change _ ∈ w₂.rows password_resets
    rw [hrows]
    exact List.mem_cons_of_mem _ (List.mem_singleton_self _)
  have hacc : s₃.Accepts sample_crates (reset_of_alice 11 (token_of 1) 0).token_hash :=
    ⟨rfl, hok₄⟩
  refine ⟨_, w₄, hrun, only_alice_unasked, fun hclosed => ?_⟩
  exact hclosed (i := 0) (j := 2) (k := 3) (by decide) (by decide) rfl rfl rfl hreq hsets hacc

end Authnz
