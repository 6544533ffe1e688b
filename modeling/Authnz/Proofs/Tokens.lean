/-
What the token services need and leave.

The specifications of `issue_token_pair`, `refresh`, `logout` and
`revoke_all_user_tokens` for a call that has the service to itself, by what each makes
of the committed rows.
-/
import Authnz.Proofs.Rotation

namespace Authnz

open Basis

/-- The row of a token that was handed out. -/
structure RowFor (c : Crates) (user_id : Uuid) (issuer : String) (res : JwtResult)
    (t : RefreshToken) : Prop where
  owner : t.user_id = user_id
  issuer : t.issuer = issuer
  hash : t.token_hash = hash_token c res.refresh_token
  unrevoked : t.revoked = some false
  trimmed : trim res.refresh_token = res.refresh_token

/-- The rows are those from before; a transaction may have left an empty place. -/
def World.Unwritten (w w' : World) : Prop := w'.places = w.places ∨ w'.places = w.places ++ [none]

section Specs

variable {c : Crates} {me : Nat} {admits : World → Op → Choice → Prop} {w : World}
  {jwt_svc : JwtService}

/-- What a transaction that gives up leaves, by its caller's desk. -/
theorem unwritten_of_rollback {w' : World} {d : Desk Record}
    (hd : d.committed = w.places ∨ d.committed = w.places ++ [none])
    (h : w'.db.desk me = d.rollback) : w'.Settled me ∧ w.Unwritten w' := by
  rw [World.Settled, World.Unwritten, places_eq me, h]
  exact ⟨rfl, hd⟩

theorem issue_token_pair_with_ends (ex : Executor) (user_id : Uuid) (issuer : String) :
    EndsE c me admits (jwt_svc.issue_token_pair_with ex user_id issuer) w
      (fun w' res => ∃ t, RowFor jwt_svc.crates user_id issuer res t ∧
        w'.db.desk me = ((w.db.desk me).insert (.refresh_token t)).settle ex)
      (fun w' _ => w'.db = w.db) := by
  refine endsE_bind (endsE_attempt (ends_quiet trivial fun w₁ r hdb₁ => ?_))
  change Except String String at r
  cases r with
  | error e => exact hdb₁
  | ok access_token =>
      refine endsE_bind (endsE_lift (ends_bind (ends_quiet trivial fun w₂ bytes hdb₂ => ?_)))
      refine ends_ret (endsE_bind (endsE_lift (ends_now fun t₁ => ?_)))
      refine endsE_bind (endsE_lift (ends_now fun t₂ => ?_))
      have hsame : w₂.db = w.db := hdb₂.trans hdb₁
      refine endsE_bind (endsE_insert (fun key w' _ _ hdesk => ?_) (fun _ _ => hsame) fun _ => hsame)
      rw [hsame] at hdesk
      exact endsE_ret ⟨_, ⟨rfl, rfl, rfl, rfl, trim_base64url bytes⟩, hdesk⟩

/-- `issue_token_pair` adds one row. -/
theorem issue_token_pair_ends (hset : w.Settled me) (user_id : Uuid) (issuer : String) :
    EndsE c me admits (jwt_svc.issue_token_pair user_id issuer) w
      (fun w' res => w'.Settled me ∧ ∃ t, RowFor jwt_svc.crates user_id issuer res t ∧
        w'.places = w.places ++ [some (.refresh_token t)])
      (fun w' _ => w'.db = w.db) := by
  refine endsE_mono (issue_token_pair_with_ends .pool user_id issuer) ?_ fun _ _ h => h
  intro w' res hpost
  obtain ⟨t, hrow, hdesk⟩ := hpost
  obtain ⟨hset', hplaces⟩ := places_of_insert hset hdesk
  exact ⟨hset', t, hrow, hplaces⟩

/-- `get_refresh_token_by_hash` finds a row with a value in `revoked`. -/
theorem get_refresh_token_by_hash_ends (hash : String) :
    EndsE c me admits (JwtService.get_refresh_token_by_hash hash) w
      (fun w' row => w' = w ∧ ∃ t ∈ w.sees me refresh_tokens, t.token_hash = hash ∧
        t.user_id = row.user_id ∧ t.issuer = row.issuer ∧ t.revoked = some row.revoked)
      (fun w' _ => w' = w) := by
  refine endsE_bind (endsE_select ?_ fun _ _ => rfl)
  cases hrows : (w.sees me refresh_tokens).filter fun t => t.token_hash == hash with
  | nil => exact endsE_throw rfl
  | cons t rest =>
      obtain ⟨ht, hh⟩ := List.mem_filter.mp (hrows ▸ List.mem_cons_self)
      dsimp only
      cases hrev : t.revoked with
      | none => exact endsE_throw rfl
      | some b => exact endsE_ret ⟨rfl, t, ht, by simpa using hh, rfl, rfl, hrev⟩

/-- A refresh that returns has found the presented token's row `t` unrevoked, and has put `t'`, for
the same user and issuer, in its place. -/
structure Exchanged (c : Crates) (me : Nat) (w : World) (cmd : RefreshCmd) (w' : World)
    (res : JwtResult) (t t' : RefreshToken) : Prop where
  found : t ∈ w.sees me refresh_tokens
  hash : t.token_hash = hash_token c (trim cmd.refresh_token)
  live : t.revoked = some false
  row : RowFor c t.user_id t.issuer res t'
  places : w'.places = w.places.map (Desk.rewrite (refresh_tokens.sel fun r =>
    r.token_hash == hash_token c (trim cmd.refresh_token)) Relation.del) ++
      [some (.refresh_token t')]

theorem refresh_ends (hset : w.Settled me) (cmd : RefreshCmd) :
    EndsE c me admits (jwt_svc.refresh cmd) w
      (fun w' res => w'.Settled me ∧ ∃ t t', Exchanged jwt_svc.crates me w cmd w' res t t')
      (fun w' _ => w'.Settled me ∧ w.Unwritten w') := by
  have hkept : ∀ {w' : World}, w'.db = w.db → (w'.db.desk me).committed = w.places ∨
      (w'.db.desk me).committed = w.places ++ [none] := by
    intro w' h
    rw [h]
    exact .inl rfl
  unfold JwtService.refresh
  dsimp only
  by_cases he : (trim cmd.refresh_token).isEmpty = true
  · rw [if_pos he]
    exact endsE_throw ⟨hset, .inl rfl⟩
  rw [if_neg he]
  refine endsE_bind (endsE_begin ?_ fun _ _ => ⟨hset, .inl rfl⟩)
  refine endsE_in_tx (endsE_mono (Q := fun w' res => ∃ t t',
      Exchanged jwt_svc.crates me w cmd w' res t t')
    (E := fun w' _ => (w'.db.desk me).committed = w.places ∨
      (w'.db.desk me).committed = w.places ++ [none]) ?_ ?_ ?_)
  · refine endsE_bind (endsE_mono (get_refresh_token_by_hash_ends _) ?_ fun w' _ h => hkept (by rw [h]))
    intro w₁ row hpost
    obtain ⟨hw₁, t, ht, hhash, hid, hiss, hrev⟩ := hpost
    by_cases hr : row.revoked = true
    · rw [if_pos hr]
      exact endsE_throw (hkept (by rw [hw₁]))
    rw [if_neg hr]
    refine endsE_bind (endsE_lift (ends_now fun now => ?_))
    by_cases hx : row.expires_at < now
    · rw [if_pos hx]
      exact endsE_throw (hkept (by rw [hw₁]))
    rw [if_neg hx]
    refine endsE_bind (endsE_retrieve (fun w₂ user hdb₂ huser => ?_)
      fun w₂ _ hdb₂ => hkept (by rw [hdb₂, hw₁]))
    have hdb : w₂.db = w.db := by rw [hdb₂, hw₁]
    refine endsE_bind (endsE_bind (endsE_delete (fun w₃ _ hdesk₃ => endsE_ret ?_)
      fun _ _ => hkept hdb))
    rw [hdb] at hdesk₃
    have hcommitted : (w₃.db.desk me).committed = w.places := by rw [hdesk₃]; rfl
    refine endsE_bind (endsE_mono (issue_token_pair_with_ends .tx user.id row.issuer) ?_ ?_)
    · intro w₄ res hpost
      obtain ⟨t', hrow, hdesk₄⟩ := hpost
      refine endsE_bind (endsE_commit (fun w₅ _ hdesk₅ => endsE_ret ?_) fun w₅ _ _ hdesk₅ _ => ?_)
      · refine ⟨t, t', ht, hhash, by rw [hrev, Bool.eq_false_iff.mpr hr], ?_, ?_⟩
        · rw [hid, ← huser, hiss]
          exact hrow
        · rw [places_eq me, hdesk₅, hdesk₄, hdesk₃, places_eq me, ← hset]
          rfl
      · refine .inr ?_
        rw [hdesk₅, hdesk₄, ← hcommitted]
        rfl
    · intro w₄ _ hdb₄
      rw [hdb₄]
      exact .inl hcommitted
  · intro w' res hpost w'' _ hdesk
    obtain ⟨t, t', hex⟩ := hpost
    have hplaces : w''.places = w'.places := by rw [places_eq me, hdesk, places_eq me]; rfl
    refine ⟨by rw [World.Settled, hdesk]; rfl, t, t', hex.found, hex.hash, hex.live, hex.row, ?_⟩
    rw [hplaces]
    exact hex.places
  · intro w' _ hd w'' _ hdesk
    exact unwritten_of_rollback hd hdesk

/-- An `UPDATE` of refresh tokens by itself revokes what it selects. -/
theorem revoke_ends {q : RefreshToken → Bool} {ε : Type} {err : DbError → ε} (hset : w.Settled me) :
    EndsE c me admits (attempt err (update_set refresh_tokens .pool q
        fun r => { r with revoked := some true })) w
      (fun w' _ => w'.Settled me ∧ w'.places = w.places.map (Desk.rewrite (refresh_tokens.sel q)
        (refresh_tokens.set fun r => { r with revoked := some true })))
      (fun w' e => w' = w ∧ ∃ e', e = err e') :=
  endsE_update (fun _ _ hdesk => places_of_write hset hdesk) fun e _ => ⟨rfl, e, rfl⟩

end Specs

end Authnz
