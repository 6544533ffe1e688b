/-
Where refresh tokens come from.

Rotation deletes the row of the token it is given and inserts one for the token it
hands out; logout, and the revocation of all of a user's tokens, set a flag in place.
`exchange` says what each call comes to in terms of keys and their successors, every
call is such a step on the table (`TokenCall.turns`), and so the laws of
`Basis/Lineage.lean` hold of every run.
-/
import Authnz.Basis.Lineage
import Authnz.Model.Sample
import Authnz.Proofs.Tokens

namespace Authnz

open Basis

/-! ### The calls -/

inductive TokenCall where
  | issue_token_pair (user_id : Uuid) (issuer : String)
  | refresh (cmd : RefreshCmd)
  | logout (cmd : LogoutCmd)
  | revoke_all_user_tokens (user_id : Uuid)
  | delete_user (id : Uuid)
  deriving DecidableEq

inductive TokenReply where
  | pair (r : Except JwtError JwtResult)
  | done (r : Except JwtError Unit)
  | deleted (r : Except ApiError Unit)

def TokenCall.code (jwt_svc : JwtService) : TokenCall → Handler TokenReply
  | .issue_token_pair user_id issuer =>
      return .pair (← (jwt_svc.issue_token_pair user_id issuer).run)
  | .refresh cmd => return .pair (← (jwt_svc.refresh cmd).run)
  | .logout cmd => return .done (← (jwt_svc.logout cmd).run)
  | .revoke_all_user_tokens user_id =>
      return .done (← (JwtService.revoke_all_user_tokens user_id).run)
  | .delete_user id => return .deleted (← Authnz.delete_user id)

/-- Calls one after the other, with what each returned.  Time passes in between: what the caches
hold expires, and each call reads the clock anew. -/
inductive TokenRuns (jwt_svc : JwtService) :
    World → List (TokenCall × TokenReply) → World → Prop where
  | nil (w : World) : TokenRuns jwt_svc w [] w
  | call {call : TokenCall} {r : TokenReply} {w w' w'' : World}
      {rest : List (TokenCall × TokenReply)}
      (h : Prog.Exec (World.answer jwt_svc.crates) 0 (fun _ _ _ => True) (call.code jwt_svc) w r w')
      (hrest : TokenRuns jwt_svc w' rest w'') : TokenRuns jwt_svc w ((call, r) :: rest) w''
  | wait (e : Expiry) {w w' : World} {rest : List (TokenCall × TokenReply)}
      (hrest : TokenRuns jwt_svc (w.expire e) rest w') : TokenRuns jwt_svc w rest w'

/-! ### The table as a store of keys -/

/-- The refresh token at a place. -/
def token_at (places : List (Option Record)) (d : Nat) : Option RefreshToken :=
  places[d]?.join.bind refresh_tokens.prj

/-- A row under its hash, with its user and issuer. -/
def voucher (t : RefreshToken) : Voucher String (Uuid × String) :=
  ⟨t.token_hash, (t.user_id, t.issuer), t.revoked == some true⟩

def vouchers (places : List (Option Record)) : Vouchers String (Uuid × String) :=
  fun d => (token_at places d).map voucher

/-- What a call comes to, by what it returned. -/
def exchange (c : Crates) : TokenCall × TokenReply → Exchange String (Uuid × String)
  | (.issue_token_pair user_id issuer, .pair (.ok res)) =>
      .issue (hash_token c res.refresh_token) (user_id, issuer)
  | (.refresh cmd, .pair (.ok res)) =>
      .rotate (hash_token c (trim cmd.refresh_token)) (hash_token c res.refresh_token)
  | _ => .other

theorem token_at_iff {places : List (Option Record)} {d : Nat} {t : RefreshToken} :
    token_at places d = some t ↔ places[d]? = some (some (.refresh_token t)) := by
  unfold token_at
  constructor
  · intro h
    obtain ⟨r, hr, hprj⟩ := Option.bind_eq_some_iff.mp h
    rw [Option.join_eq_some_iff.mp hr, refresh_tokens.inj_of_prj hprj]
    rfl
  · intro h
    rw [h]
    rfl

theorem voucher_revoked {t : RefreshToken} : (voucher t).revoked = true ↔ t.revoked = some true := by
  simp [voucher]

theorem vouchers_iff {places : List (Option Record)} {d : Nat} {v : Voucher String (Uuid × String)} :
    vouchers places d = some v ↔ ∃ t, token_at places d = some t ∧ voucher t = v :=
  Option.map_eq_some_iff

theorem vouchers_none (places : List (Option Record)) :
    vouchers (places ++ [none]) = vouchers places := by
  funext d
  refine congrArg (Option.map voucher) ?_
  unfold token_at
  by_cases hd : d < places.length
  · rw [List.getElem?_append_left hd]
  · rw [List.getElem?_append_right (by omega), List.getElem?_eq_none (l := places) (by omega)]
    cases d - places.length <;> rfl

theorem vouchers_concat (places : List (Option Record)) (t : RefreshToken) :
    vouchers (places ++ [some (.refresh_token t)]) =
      Function.update (vouchers places) places.length (some (voucher t)) := by
  funext d
  by_cases hd : d = places.length
  · subst hd
    rw [Function.update_self]
    unfold vouchers token_at
    rw [List.getElem?_concat_length]
    rfl
  · rw [Function.update_of_ne hd]
    refine congrArg (Option.map voucher) ?_
    unfold token_at
    by_cases hlt : d < places.length
    · rw [List.getElem?_append_left hlt]
    · rw [List.getElem?_eq_none (by simp; omega), List.getElem?_eq_none (by omega)]

/-- A statement that deletes tokens, or revokes them in place, is an ebb. -/
theorem ebbs_rewrite {p : Record → Bool} {f : Record → Option Record}
    (h : ∀ r t', f r = some (.refresh_token t') → ∃ t, r = .refresh_token t ∧
      (voucher t').key = (voucher t).key ∧ (voucher t').load = (voucher t).load ∧
      ((voucher t).revoked = true → (voucher t').revoked = true))
    (places : List (Option Record)) :
    (vouchers places).Ebbs (vouchers (places.map (Desk.rewrite p f))) := by
  intro d v' hd
  obtain ⟨t', ht', rfl⟩ := vouchers_iff.mp hd
  rw [token_at_iff, List.getElem?_map] at ht'
  obtain ⟨x, hx, hrw⟩ := Option.map_eq_some_iff.mp ht'
  cases x with
  | none => cases hrw
  | some r =>
      by_cases hp : p r = true
      · rw [Desk.rewrite_hit hp] at hrw
        obtain ⟨t, rfl, hkept⟩ := h r t' hrw
        exact ⟨voucher t, vouchers_iff.mpr ⟨t, token_at_iff.mpr hx, rfl⟩, hkept⟩
      · rw [Desk.rewrite_miss (Bool.eq_false_iff.mpr hp)] at hrw
        obtain rfl := Option.some.inj hrw
        exact ⟨voucher t', vouchers_iff.mpr ⟨t', token_at_iff.mpr hx, rfl⟩, rfl, rfl, id⟩

theorem ebbs_delete (p : Record → Bool) (places : List (Option Record)) :
    (vouchers places).Ebbs (vouchers (places.map (Desk.rewrite p Relation.del))) :=
  ebbs_rewrite (fun _ _ hf => by cases hf) places

theorem ebbs_revoke (p : Record → Bool) (places : List (Option Record)) :
    (vouchers places).Ebbs (vouchers (places.map (Desk.rewrite p
      (refresh_tokens.set fun t => { t with revoked := some true })))) := by
  refine ebbs_rewrite (fun r t' hf => ?_) places
  cases r with
  | refresh_token t =>
      cases hf
      exact ⟨t, rfl, rfl, rfl, fun _ => rfl⟩
  | _ => cases hf

/-! ### What each call does -/

section Calls

variable {jwt_svc : JwtService} {me : Nat} {admits : World → Op → Choice → Prop} {w w' : World}

/-- The state the calls of a run find and leave, and the step from one to the other. -/
def Turns (c : Crates) (me : Nat) (call : TokenCall) (w w' : World) (r : TokenReply) : Prop :=
  w'.Settled me ∧ (vouchers w.places).Step (exchange c (call, r)) (vouchers w'.places)

/-- A call of no consequence for the lines. -/
theorem turns_other {c : Crates} {call : TokenCall} {r : TokenReply} (hset : w'.Settled me)
    (hother : exchange c (call, r) = .other) (hebb : (vouchers w.places).Ebbs (vouchers w'.places)) :
    Turns c me call w w' r := by
  refine ⟨hset, ?_⟩
  rw [hother]
  exact .other hebb

theorem ebbs_of_unwritten (h : w.Unwritten w') : (vouchers w.places).Ebbs (vouchers w'.places) := by
  rcases h with heq | heq
  · rw [heq]
    exact Vouchers.Ebbs.refl _
  · rw [heq, vouchers_none]
    exact Vouchers.Ebbs.refl _

/-- A logout flags the row of the presented token, if there is one. -/
theorem logout_ends (hset : w.Settled me) (cmd : LogoutCmd) :
    EndsE jwt_svc.crates me admits (jwt_svc.logout cmd) w
      (fun w' _ => w'.Settled me ∧ w'.places = w.places.map (Desk.rewrite
        (refresh_tokens.sel fun t => t.token_hash ==
          hash_token jwt_svc.crates (trim cmd.refresh_token))
        (refresh_tokens.set fun t => { t with revoked := some true })))
      (fun w' _ => w' = w) := by
  unfold JwtService.logout
  dsimp only
  by_cases he : (trim cmd.refresh_token).isEmpty = true
  · rw [if_pos he]
    exact endsE_throw rfl
  rw [if_neg he]
  refine ends_run (endsE_bind (endsE_mono (revoke_ends hset) ?_ ?_))
  · intro w' rows h
    by_cases hrows : rows.length = 0
    · rw [if_pos hrows]
      exact endsE_throw (ends_ret h)
    · rw [if_neg hrows]
      exact endsE_ret (ends_ret h)
  · intro w' e hpost
    obtain ⟨hw, e', he'⟩ := hpost
    rw [he']
    exact ends_ret hw

theorem delete_user_ends (hset : w.Settled me) (id : Uuid) :
    Ends jwt_svc.crates me admits (delete_user id) w fun w' _ => w'.Settled me ∧
      (vouchers w.places).Ebbs (vouchers w'.places) := by
  refine ends_bind (ends_ask ?_)
  intro ch w' r _ hans
  obtain ⟨out, -, hdb, -⟩ := World.answer_sql hans
  refine ends_ret ?_
  rcases SqlOp.alone_write hdb with ⟨hdesk, -⟩ | ⟨-, ht, -⟩
  · obtain ⟨hset', hplaces⟩ := places_of_write hset hdesk
    rw [hplaces]
    exact ⟨hset', ebbs_delete _ _⟩
  · rw [World.Settled, World.places, World.places, ht]
    exact ⟨hset, Vouchers.Ebbs.refl _⟩

/-- **Every call is a step of the lines.** -/
theorem TokenCall.turns (call : TokenCall) (hset : w.Settled me) :
    Ends jwt_svc.crates me admits (call.code jwt_svc) w
      fun w' r => Turns jwt_svc.crates me call w w' r := by
  cases call with
  | issue_token_pair user_id issuer =>
      refine ends_run (endsE_mono (issue_token_pair_ends hset user_id issuer) ?_ ?_)
      · intro w' res hpost
        obtain ⟨hset', t, hrow, hplaces⟩ := hpost
        refine ends_ret ⟨hset', ?_⟩
        rw [hplaces, vouchers_concat]
        have hv : voucher t = ⟨hash_token jwt_svc.crates res.refresh_token, (user_id, issuer),
            false⟩ := by
          simp [voucher, hrow.owner, hrow.issuer, hrow.hash, hrow.unrevoked]
        rw [hv]
        exact .issue
      · intro w' e hdb
        refine ends_ret (turns_other ?_ rfl ?_)
        · rw [World.Settled, hdb]
          exact hset
        · rw [World.places, World.places, hdb]
          exact Vouchers.Ebbs.refl _
  | refresh cmd =>
      refine ends_run (endsE_mono (refresh_ends hset cmd) ?_ ?_)
      · intro w' res hpost
        obtain ⟨hset', t, t', hex⟩ := hpost
        refine ends_ret ⟨hset', ?_⟩
        obtain ⟨d, hd⟩ := (mem_sees hset).mp hex.found
        have hv : voucher t' = ⟨hash_token jwt_svc.crates res.refresh_token,
            (t.user_id, t.issuer), false⟩ := by
          simp [voucher, hex.row.owner, hex.row.issuer, hex.row.hash, hex.row.unrevoked]
        have ht : voucher t = ⟨hash_token jwt_svc.crates (trim cmd.refresh_token),
            (t.user_id, t.issuer), false⟩ := by
          simp [voucher, hex.hash, hex.live]
        rw [hex.places, vouchers_concat, hv]
        refine .rotate (vouchers_iff.mpr ⟨t, token_at_iff.mpr hd, ht⟩) (ebbs_delete _ _) ?_
        intro e v he
        obtain ⟨x, hx, rfl⟩ := vouchers_iff.mp he
        rw [token_at_iff, List.getElem?_map] at hx
        obtain ⟨y, -, hrw⟩ := Option.map_eq_some_iff.mp hx
        intro hkey
        cases y with
        | none => cases hrw
        | some r =>
            by_cases hsel : refresh_tokens.sel (fun r => r.token_hash ==
                hash_token jwt_svc.crates (trim cmd.refresh_token)) r = true
            · rw [Desk.rewrite_hit hsel] at hrw
              cases hrw
            · rw [Desk.rewrite_miss (Bool.eq_false_iff.mpr hsel)] at hrw
              obtain rfl := Option.some.inj hrw
              exact hsel ((refresh_tokens.sel_inj _ x).trans (beq_iff_eq.mpr hkey))
      · intro w' e hpost
        obtain ⟨hset', hun⟩ := hpost
        exact ends_ret (turns_other hset' rfl (ebbs_of_unwritten hun))
  | logout cmd =>
      refine ends_run (endsE_mono (logout_ends hset cmd) ?_ ?_)
      · intro w' u hpost
        obtain ⟨hset', hplaces⟩ := hpost
        refine ends_ret (turns_other hset' rfl ?_)
        rw [hplaces]
        exact ebbs_revoke _ _
      · intro w' e hw
        rw [hw]
        exact ends_ret (turns_other hset rfl (Vouchers.Ebbs.refl _))
  | revoke_all_user_tokens user_id =>
      refine ends_run (endsE_bind (endsE_mono (revoke_ends hset) ?_ ?_))
      · intro w' rows hpost
        obtain ⟨hset', hplaces⟩ := hpost
        refine endsE_ret (ends_ret (turns_other hset' rfl ?_))
        rw [hplaces]
        exact ebbs_revoke _ _
      · intro w' e hpost
        obtain ⟨hw, _⟩ := hpost
        rw [hw]
        exact ends_ret (turns_other hset rfl (Vouchers.Ebbs.refl _))
  | delete_user id =>
      refine ends_bind (ends_mono (delete_user_ends hset id) ?_)
      intro w' r hpost
      obtain ⟨hset', hebb⟩ := hpost
      exact ends_ret (turns_other hset' rfl hebb)

/-- **Every run of calls is a run of the lines.** -/
theorem TokenRuns.refines {served : List (TokenCall × TokenReply)}
    (h : TokenRuns jwt_svc w served w') (hset : w.Settled 0) :
    w'.Settled 0 ∧
      (vouchers w.places).Run (served.map (exchange jwt_svc.crates)) (vouchers w'.places) := by
  induction h with
  | nil w => exact ⟨hset, .nil _⟩
  | call hcall _ ih =>
      obtain ⟨hset', hstep⟩ := TokenCall.turns _ hset _ _ hcall
      obtain ⟨hset'', hrun⟩ := ih hset'
      exact ⟨hset'', .cons hstep hrun⟩
  | @wait e w w' rest _ ih =>
      have hset' : (w.expire e).Settled 0 := by
        rw [World.Settled, World.expire_db]
        exact hset
      obtain ⟨hset'', hrun⟩ := ih hset'
      rw [World.places, World.expire_db] at hrun
      exact ⟨hset'', hrun⟩

end Calls

/-! ### Every run -/

/-- Step `i` handed out this token. -/
def HandsOut (past : List (TokenCall × TokenReply)) (i : Nat) (raw : String) : Prop :=
  ∃ call res, past[i]? = some (call, .pair (.ok res)) ∧ res.refresh_token = raw

/-- The token with this hash is of the line that the call at place `i` of the run began. -/
def OfLine (c : Crates) (past : List (TokenCall × TokenReply)) (i : Nat) (hash : String) : Prop :=
  Stems (past.map (exchange c)) i hash

/-- The call, having returned this, has revoked the row. -/
def Revokes (c : Crates) (t : RefreshToken) : TokenCall × TokenReply → Prop
  | (.logout cmd, .done (.ok ())) => t.token_hash = hash_token c (trim cmd.refresh_token)
  | (.revoke_all_user_tokens user_id, .done (.ok ())) => t.user_id = user_id
  | _ => False

/-- What the rows of a state say of the run that led there. -/
structure InLines (jwt_svc : JwtService) (w₀ : World) (past : List (TokenCall × TokenReply))
    (w : World) : Prop where
  /-- A row stems from one issuing call alone, and has its user and issuer. -/
  rooted : ∀ {d : Nat} {t : RefreshToken}, token_at w.places d = some t →
    ∃ i res, past[i]? = some (.issue_token_pair t.user_id t.issuer, .pair (.ok res)) ∧
      OfLine jwt_svc.crates past i t.token_hash ∧
      ∀ j, OfLine jwt_svc.crates past j t.token_hash → j = i
  /-- A line has one row at most. -/
  single : ∀ {d e i : Nat} {t t' : RefreshToken}, token_at w.places d = some t →
    token_at w.places e = some t' → OfLine jwt_svc.crates past i t.token_hash →
    OfLine jwt_svc.crates past i t'.token_hash → d = e
  /-- A token is accepted once at most. -/
  once : ∀ {i j : Nat} {cmd cmd' : RefreshCmd} {res res' : JwtResult},
    past[i]? = some (.refresh cmd, .pair (.ok res)) →
    past[j]? = some (.refresh cmd', .pair (.ok res')) →
    trim cmd.refresh_token = trim cmd'.refresh_token → i = j
  /-- A revocation flags the row, and no refresh on its line is accepted any more. -/
  final : ∀ {before after : List (TokenCall × TokenReply)} {turn : TokenCall × TokenReply}
    {w₁ w₂ : World} {d i : Nat} {t : RefreshToken}, past = before ++ turn :: after →
    TokenRuns jwt_svc w₀ before w₁ →
    Prog.Exec (World.answer jwt_svc.crates) 0 (fun _ _ _ => True) (turn.1.code jwt_svc) w₁
      turn.2 w₂ →
    TokenRuns jwt_svc w₂ after w → token_at w₁.places d = some t →
    Revokes jwt_svc.crates t turn → OfLine jwt_svc.crates before i t.token_hash →
    token_at w₂.places d = some { t with revoked := some true } ∧
      ∀ cmd res, (.refresh cmd, .pair (.ok res)) ∈ after →
        ¬ OfLine jwt_svc.crates past i (hash_token jwt_svc.crates (trim cmd.refresh_token))

section Runs

variable {jwt_svc : JwtService} {w₀ w₁ w₂ w : World} {past : List (TokenCall × TokenReply)}

/-- Tokens drawn apart, with hashes that tell them apart, make fresh keys. -/
theorem fresh_of_drawn {c : Crates}
    (hdistinct : ∀ i j raw, HandsOut past i raw → HandsOut past j raw → i = j)
    (hinj : ∀ i j raw raw', HandsOut past i raw → HandsOut past j raw' →
      hash_token c raw = hash_token c raw' → raw = raw') : Fresh (past.map (exchange c)) := by
  have hbrings : ∀ {i k}, BringsAt (past.map (exchange c)) i k →
      ∃ raw, HandsOut past i raw ∧ k = hash_token c raw := by
    intro i k hpost
    obtain ⟨a, ha, hk⟩ := hpost
    rw [List.getElem?_map] at ha
    obtain ⟨⟨call, r⟩, hturn, rfl⟩ := Option.map_eq_some_iff.mp ha
    unfold exchange at hk
    split at hk
    · rename_i res heq
      cases heq
      exact ⟨_, ⟨_, res, hturn, rfl⟩, (Option.some.inj hk).symm⟩
    · rename_i res heq
      cases heq
      exact ⟨_, ⟨_, res, hturn, rfl⟩, (Option.some.inj hk).symm⟩
    · cases hk
  intro i j k hi hj
  obtain ⟨raw, hraw, hk⟩ := hbrings hi
  obtain ⟨raw', hraw', hk'⟩ := hbrings hj
  obtain rfl := hinj i j raw raw' hraw hraw' (hk.symm.trans hk')
  exact hdistinct i j raw hraw hraw'

/-- A revocation flags the row in its place. -/
theorem revokes_flags {me : Nat} {turn : TokenCall × TokenReply} {d : Nat} {t : RefreshToken}
    (hset : w₁.Settled me) (h : Prog.Exec (World.answer jwt_svc.crates) me (fun _ _ _ => True)
      (turn.1.code jwt_svc) w₁ turn.2 w₂)
    (hd : token_at w₁.places d = some t) (hrev : Revokes jwt_svc.crates t turn) :
    token_at w₂.places d = some { t with revoked := some true } := by
  have hflag : ∀ {q : RefreshToken → Bool}, w₂.places = w₁.places.map (Desk.rewrite
        (refresh_tokens.sel q) (refresh_tokens.set fun t => { t with revoked := some true })) →
      q t = true → token_at w₂.places d = some { t with revoked := some true } := by
    intro q hplaces hq
    rw [token_at_iff, hplaces, List.getElem?_map, token_at_iff.mp hd]
    exact congrArg some (Desk.rewrite_hit ((refresh_tokens.sel_inj q t).trans hq))
  obtain ⟨call, r⟩ := turn
  unfold Revokes at hrev
  split at hrev
  · rename_i cmd heq
    cases heq
    obtain ⟨r, w', hsvc, hret⟩ := Prog.exec_bind.mp h
    obtain ⟨hr, rfl⟩ := Prog.exec_ret.mp hret
    obtain rfl := TokenReply.done.inj hr
    exact hflag (logout_ends hset cmd _ _ hsvc).2 (beq_iff_eq.mpr hrev)
  · rename_i user_id heq
    cases heq
    obtain ⟨r, w', hsvc, hret⟩ := Prog.exec_bind.mp h
    obtain ⟨hr, rfl⟩ := Prog.exec_ret.mp hret
    obtain rfl := TokenReply.done.inj hr
    have hends : EndsE jwt_svc.crates me (fun _ _ _ => True)
        (JwtService.revoke_all_user_tokens user_id) w₁
        (fun w' _ => w'.places = w₁.places.map (Desk.rewrite
          (refresh_tokens.sel fun t => t.user_id == user_id)
          (refresh_tokens.set fun t => { t with revoked := some true }))) fun _ _ => True :=
      endsE_bind (endsE_mono (revoke_ends hset) (fun _ _ hw => endsE_ret hw.2) fun _ _ _ => trivial)
    exact hflag (hends _ _ hsvc) (beq_iff_eq.mpr hrev)
  · exact hrev.elim

/-- **Refresh tokens form lines**: one row to a line, one acceptance to a token, and an end when
the row is revoked, in every run that starts without refresh tokens. -/
theorem refresh_tokens_in_lines (jwt_svc : JwtService) (w₀ w : World)
    (past : List (TokenCall × TokenReply)) (hset : w₀.Settled 0)
    (hnone : ∀ d, token_at w₀.places d = none) (hrun : TokenRuns jwt_svc w₀ past w)
    (hdistinct : ∀ i j raw, HandsOut past i raw → HandsOut past j raw → i = j)
    (hinj : ∀ i j raw raw', HandsOut past i raw → HandsOut past j raw' →
      hash_token jwt_svc.crates raw = hash_token jwt_svc.crates raw' → raw = raw') :
    InLines jwt_svc w₀ past w := by
  have hfresh := fresh_of_drawn hdistinct hinj
  have hstart : Lineages [] (vouchers w₀.places) := .start _ fun d => by rw [vouchers, hnone]; rfl
  have hlines := hstart.run (hrun.refines hset).2 hfresh
  rw [List.nil_append] at hlines
  have hturn : ∀ {i : Nat} {x}, past[i]? = some x →
      (past.map (exchange jwt_svc.crates))[i]? = some (exchange jwt_svc.crates x) := by
    intro i x hi
    rw [List.getElem?_map, hi]
    rfl
  refine ⟨?_, ?_, ?_, ?_⟩
  · intro d t hd
    obtain ⟨i, k, hi, hstem⟩ := hlines.rooted (vouchers_iff.mpr ⟨t, hd, rfl⟩)
    rw [List.getElem?_map] at hi
    obtain ⟨⟨call, r⟩, hpast, hex⟩ := Option.map_eq_some_iff.mp hi
    unfold exchange at hex
    split at hex
    · rename_i res heq
      cases heq
      cases hex
      exact ⟨i, res, hpast, hstem, fun j hj => hj.unique hfresh hstem⟩
    · cases hex
    · cases hex
  · intro d e i t t' hd he hi hi'
    exact hlines.single (vouchers_iff.mpr ⟨t, hd, rfl⟩) (vouchers_iff.mpr ⟨t', he, rfl⟩) hi hi'
  · intro i j cmd cmd' res res' hi hj heq
    have hi' := hturn hi
    simp only [exchange, heq] at hi'
    exact hlines.once hi' (hturn hj)
  · intro before after turn w₁ w₂ d i t hpast hbefore hexec hafter hd hrev hline
    have hmap : past.map (exchange jwt_svc.crates) = before.map (exchange jwt_svc.crates) ++
        [exchange jwt_svc.crates turn] ++ after.map (exchange jwt_svc.crates) := by
      rw [hpast, List.map_append, List.map_cons, List.append_cons]
    rw [hmap] at hfresh
    obtain ⟨hset₁, hrun₁⟩ := hbefore.refines hset
    obtain ⟨hset₂, hstep⟩ := TokenCall.turns _ hset₁ _ _ hexec
    have hflag := revokes_flags hset₁ hexec hd hrev
    refine ⟨hflag, fun cmd res hmem => ?_⟩
    have hlines₁ := hstart.run hrun₁ hfresh.of_append.of_append
    have hlines₂ := hlines₁.step hstep hfresh.of_append
    have hended : Lineages.Ended (before.map (exchange jwt_svc.crates) ++
        [exchange jwt_svc.crates turn]) (vouchers w₂.places) i :=
      hlines₂.ended_of_revoked (vouchers_iff.mpr ⟨_, hflag, rfl⟩) (hline.snoc _)
        (voucher_revoked.mpr rfl)
    have hlt := hline.lt
    rw [OfLine, hmap]
    refine hlines₂.ended_run hended ?_ (hafter.refines hset₂).2 hfresh
      (List.mem_map.mpr ⟨_, hmem, rfl⟩)
    rw [List.nil_append, List.length_append]
    omega

end Runs

/-- Alice's token is rotated, its successor is revoked, and is refused from then on. -/
def rotated_then_revoked : List (TokenCall × TokenReply) :=
  [(.issue_token_pair 7 "session", .pair (.ok ⟨"jwt", token_of 1, 600⟩)),
    (.refresh ⟨token_of 1⟩, .pair (.ok ⟨"jwt", token_of 2, 600⟩)),
    (.logout ⟨token_of 2⟩, .done (.ok ())),
    (.refresh ⟨token_of 2⟩, .pair (.error .RefreshTokenNotFound))]

/-- The choices that draw the token of these bytes. -/
def drawing (b : UInt8) : List Choice :=
  [.text "jwt", .bytes (List.replicate 32 b), .time 0, .time 0, .go]

theorem refresh_tokens_in_lines_for_alice : ∃ w,
    TokenRuns sample_jwt (World.of [.user (sample_user "password")]) rotated_then_revoked w ∧
      InLines sample_jwt (World.of [.user (sample_user "password")]) rotated_then_revoked w := by
  have hcalls : ∃ w₁ w₂ w₃ w₄,
      Prog.exec? (World.answer sample_crates) 0 (fun _ _ _ => true) (drawing 1)
        (TokenCall.code sample_jwt (.issue_token_pair 7 "session"))
        (World.of [.user (sample_user "password")]) =
          some (.pair (.ok ⟨"jwt", token_of 1, 600⟩), w₁) ∧
      Prog.exec? (World.answer sample_crates) 0 (fun _ _ _ => true)
        ([.go, .go, .time 0, .go, .go] ++ drawing 2 ++ [.go, .go])
        (TokenCall.code sample_jwt (.refresh ⟨token_of 1⟩)) w₁ =
          some (.pair (.ok ⟨"jwt", token_of 2, 600⟩), w₂) ∧
      Prog.exec? (World.answer sample_crates) 0 (fun _ _ _ => true) [.go]
        (TokenCall.code sample_jwt (.logout ⟨token_of 2⟩)) w₂ = some (.done (.ok ()), w₃) ∧
      Prog.exec? (World.answer sample_crates) 0 (fun _ _ _ => true) [.go, .go, .go]
        (TokenCall.code sample_jwt (.refresh ⟨token_of 2⟩)) w₃ =
          some (.pair (.error .RefreshTokenNotFound), w₄) :=
    ⟨_, _, _, _, rfl, rfl, rfl, rfl⟩
  obtain ⟨w₁, w₂, w₃, w₄, h₁, h₂, h₃, h₄⟩ := hcalls
  have hrun : TokenRuns sample_jwt (World.of [.user (sample_user "password")])
      rotated_then_revoked w₄ :=
    .call ((Prog.exec_of_exec? h₁).mono fun _ _ _ _ => trivial)
      (.call ((Prog.exec_of_exec? h₂).mono fun _ _ _ _ => trivial)
        (.call ((Prog.exec_of_exec? h₃).mono fun _ _ _ _ => trivial)
          (.call ((Prog.exec_of_exec? h₄).mono fun _ _ _ _ => trivial) (.nil w₄))))
  have hdrawn : ∀ {i : Nat} {raw : String}, HandsOut rotated_then_revoked i raw →
      i = 0 ∧ raw = token_of 1 ∨ i = 1 ∧ raw = token_of 2 := by
    intro i raw hpost
    obtain ⟨call, res, hi, hraw⟩ := hpost
    rcases i with _ | _ | _ | _ | i
    · cases hi
      exact .inl ⟨rfl, hraw.symm⟩
    · cases hi
      exact .inr ⟨rfl, hraw.symm⟩
    · cases hi
    · cases hi
    · cases hi
  have hne : token_of 1 ≠ token_of 2 := by decide
  have hhash : hash_token sample_crates (token_of 1) ≠ hash_token sample_crates (token_of 2) := by
    decide
  refine ⟨w₄, hrun, refresh_tokens_in_lines sample_jwt _ _ _ rfl (fun d => ?_) hrun ?_ ?_⟩
  · rcases d with _ | d <;> rfl
  · intro i j raw hi hj
    rcases hdrawn hi with ⟨rfl, rfl⟩ | ⟨rfl, rfl⟩ <;> rcases hdrawn hj with ⟨rfl, h⟩ | ⟨rfl, h⟩
    · rfl
    · exact absurd h hne
    · exact absurd h.symm hne
    · rfl
  · intro i j raw raw' hi hj heq
    rcases hdrawn hi with ⟨-, rfl⟩ | ⟨-, rfl⟩ <;> rcases hdrawn hj with ⟨-, rfl⟩ | ⟨-, rfl⟩
    · rfl
    · exact absurd heq hhash
    · exact absurd heq.symm hhash
    · rfl

end Authnz
