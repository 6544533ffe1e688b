/-
A rotation ends everything older.

After a successful `change_password` or `confirm_password_reset` for a user, no session
and no live refresh token of theirs from before is left, and nothing a later request
does brings one back: a row at an old place stays what it was or loses what it had, and
a presented token is looked up at the place its hash has.
-/
import Authnz.Proofs.Accounts
import Authnz.Proofs.ChangeHandler
import Authnz.Proofs.Origins
import Authnz.Proofs.Tokens

namespace Authnz

open Basis

/-! ### What a refresh needs and leaves -/

section Refresh

variable {c : Crates} {me : Nat} {w : World}

/-- The row of a token that was handed out. -/
structure RowOf (c : Crates) (user_id : Uuid) (res : JwtResult) (t : RefreshToken) : Prop where
  owner : t.user_id = user_id
  hash : t.token_hash = hash_token c (trim res.refresh_token)

/-- A refresh that returns has found the presented token unrevoked, and leaves the row of the
token it hands out to the same user. -/
def Refreshed (c : Crates) (me : Nat) (w : World) (cmd : RefreshCmd) (w' : World)
    (res : JwtResult) : Prop :=
  ∃ t ∈ w.sees me refresh_tokens, t.token_hash = hash_token c (trim cmd.refresh_token) ∧
    t.revoked = some false ∧ ∃ (t' : RefreshToken) (d : Nat), RowOf c t.user_id res t' ∧
      w'.places[d]? = some (some (.refresh_token t'))

theorem Exchanged.refreshed {cmd : RefreshCmd} {w' : World} {res : JwtResult} {t t' : RefreshToken}
    (h : Exchanged c me w cmd w' res t t') : Refreshed c me w cmd w' res := by
  refine ⟨t, h.found, h.hash, h.live, t', w.places.length,
    ⟨h.row.owner, by rw [h.row.trimmed, h.row.hash]⟩, ?_⟩
  rw [h.places, List.getElem?_append_right (by simp), List.length_map, Nat.sub_self]
  rfl

end Refresh

/-! ### The rotation -/

/-- A successful rotation of the user's password, with its answer. -/
inductive Rotation (c : Crates) (admits : World → Op → Choice → Prop) (u : Uuid) :
    World → HttpResponse → World → Prop where
  | change {session : Identity} {req : ChangePasswordRequest} {params : SessionParams}
      {w w' : World} {resp : HttpResponse}
      (h : Prog.Exec (World.answer c) 0 admits (handlers.change_password c session req params)
        w resp w')
      (hsub : session.sub = u) (hok : resp.status = 200) : Rotation c admits u w resp w'
  | reset {payload : PasswordResetConfirmRequest} {w w' : World} {resp : HttpResponse}
      (h : Prog.Exec (World.answer c) 0 admits (handlers.confirm_password_reset c payload) w resp w')
      (hu : ∀ p ∈ w.sees 0 password_resets, p.token_hash = hash_token c payload.token →
        p.user_id = u)
      (hok : resp.status = 200) : Rotation c admits u w resp w'

section Rotation

variable {c : Crates} {admits : World → Op → Choice → Prop} {w w' : World} {u : Uuid}

/-- Every `change_password` answered with success is a rotation. -/
theorem rotation_of_change {cookie : String} {req : ChangePasswordRequest} {params : SessionParams}
    {resp : HttpResponse} (h : Prog.Exec (World.answer c) 0 admits (session_middleware cookie
      fun id => handlers.change_password c id req params) w resp w') (hok : resp.status = 200) :
    ∃ u, Rotation c admits u w resp w' := by
  obtain ⟨session, w₁, hauth, hrest⟩ := Prog.exec_bind.mp h
  obtain rfl := exec_authenticate hauth
  change Option Identity at session
  cases session with
  | none =>
      obtain ⟨rfl, -⟩ := Prog.exec_ret.mp hrest
      cases hok
  | some id => exact ⟨id.sub, .change hrest rfl hok⟩

/-- A `confirm_password_reset` answered with success has redeemed a reset, and goes on for its
user. -/
theorem reset_of_success {me : Nat} {payload : PasswordResetConfirmRequest} {resp : HttpResponse}
    (hset : w.Settled me)
    (h : Prog.Exec (World.answer c) me admits (handlers.confirm_password_reset c payload) w resp w')
    (hok : resp.status = 200) :
    ∃ p ∈ w.sees me password_resets, p.token_hash = hash_token c payload.token ∧
      ∃ w₁, Prog.Exec (World.answer c) me admits (UserService.confirm_password_reset c
        ⟨payload.token, payload.new_password⟩).run w (.ok p.user_id) w₁ ∧
      Prog.Exec (World.answer c) me admits (after_reset p.user_id) w₁ resp w' := by
  obtain ⟨r, w₁, hsvc, hrest⟩ := Prog.exec_bind.mp h
  have hends := confirm_password_reset_redeems hset _ r w₁ hsvc
  cases r with
  | error e =>
      obtain ⟨rfl, -⟩ := Prog.exec_ret.mp hrest
      exact absurd hok (auth_error_status e)
  | ok u =>
      obtain ⟨⟨salt, now, -, ⟨p, hp, hred, rfl⟩, -⟩, -, -⟩ := hends
      exact ⟨p, hp, redeemable_hash hred, w₁, hsvc, hrest⟩

/-- Every `confirm_password_reset` answered with success is one, where no two users have a reset of
one token hash. -/
theorem rotation_of_reset {payload : PasswordResetConfirmRequest} {resp : HttpResponse}
    (hset : w.Settled 0)
    (hunique : ∀ p ∈ w.sees 0 password_resets, ∀ q ∈ w.sees 0 password_resets,
      p.token_hash = q.token_hash → p.user_id = q.user_id)
    (h : Prog.Exec (World.answer c) 0 admits (handlers.confirm_password_reset c payload) w resp w')
    (hok : resp.status = 200) : ∃ u, Rotation c admits u w resp w' := by
  obtain ⟨p, hp, hhash, -⟩ := reset_of_success hset h hok
  exact ⟨p.user_id, .reset h (fun q hq hq' => hunique q hq p hp (hq'.trans hhash.symm)) hok⟩

/-- A rotation keeps what its operations keep. -/
theorem Rotation.invariant {I : World → Prop} {resp : HttpResponse}
    (h : Rotation c admits u w resp w')
    (hkeep : ∀ {α : Type} {p : Handler α}, Orderly c 0 (fun o => Plain o ∨ HashWrite o) p →
      Keeps c 0 admits I p) (hw : I w) : I w' := by
  cases h with
  | change h => exact hkeep (handlers.change_password_orderly _ _ _) w hw _ _ h
  | reset h => exact hkeep (handlers.confirm_password_reset_orderly _) w hw _ _ h

/-- After the first sweep the user has no session, if all were listed. -/
theorem no_session_left (hset' : w'.Settled 0) {l : List Session} (hl : AllListed u l w)
    (hp : w'.places = w.places.map (Desk.rewrite (sessions.sel (listed l)) Relation.del)) :
    NoSession u w'.db.length w' := by
  refine ⟨Nat.le_refl _, fun {d s} hd hs => ?_⟩
  have hplace := places_of_reads hset' hd
  rw [hp, List.getElem?_map] at hplace
  obtain ⟨y, hy, hrw⟩ := Option.map_eq_some_iff.mp hplace
  cases y with
  | none => cases hrw
  | some row =>
      by_cases hsel : sessions.sel (listed l) row = true
      · rw [Desk.rewrite_hit hsel] at hrw
        cases hrw
      · rw [Desk.rewrite_miss (by simpa using hsel)] at hrw
        obtain rfl : row = .session s := Option.some.inj hrw
        exact absurd ((sessions.sel_inj _ s).trans (hl d s hy hs)) hsel

/-- After the second sweep every refresh token of the user is revoked. -/
theorem all_revoked (hset' : w'.Settled 0)
    (hp : w'.places = w.places.map (Desk.rewrite (refresh_tokens.sel fun t => t.user_id == u)
      (refresh_tokens.set fun t => { t with revoked := some true }))) :
    Revoked u w'.db.length w' := by
  refine ⟨Nat.le_refl _, fun {d t} hd hu _ => ?_⟩
  have hplace := places_of_reads hset' hd
  rw [hp, List.getElem?_map] at hplace
  obtain ⟨y, hy, hrw⟩ := Option.map_eq_some_iff.mp hplace
  cases y with
  | none => cases hrw
  | some row =>
      by_cases hsel : refresh_tokens.sel (fun t => t.user_id == u) row = true
      · rw [Desk.rewrite_hit hsel] at hrw
        obtain ⟨t₀, rfl, -⟩ := refresh_tokens.sel_iff.mp hsel
        rw [Relation.set_inj] at hrw
        cases hrw
        rfl
      · rw [Desk.rewrite_miss (by simpa using hsel)] at hrw
        obtain rfl : row = .refresh_token t := Option.some.inj hrw
        exact absurd (by simp [Relation.sel, refresh_tokens, hu]) hsel

/-- The second sweep leaves the sessions. -/
theorem session_before_revoke {d : Nat} {s : Session}
    (hp : w'.places = w.places.map (Desk.rewrite (refresh_tokens.sel fun t => t.user_id == u)
      (refresh_tokens.set fun t => { t with revoked := some true })))
    (hd : w'.places[d]? = some (some (.session s))) : w.places[d]? = some (some (.session s)) := by
  rw [hp, List.getElem?_map] at hd
  obtain ⟨y, hy, hrw⟩ := Option.map_eq_some_iff.mp hd
  rw [hy]
  cases y with
  | none => cases hrw
  | some row =>
      cases hrow : refresh_tokens.prj row with
      | none => rw [← hrw, rewrite_other hrow]
      | some t =>
          obtain rfl := refresh_tokens.inj_of_prj hrow
          by_cases hu : (t.user_id == u) = true
          · rw [Desk.rewrite_hit (by simpa using hu), Relation.set_inj] at hrw
            cases hrw
          · rw [← hrw, Desk.rewrite_miss (by simpa using hu)]

theorem Revoked.mono {m n : Nat} (h : Revoked u m w) (hn : n ≤ m) : Revoked u n w :=
  ⟨Nat.le_trans hn h.length, fun hd hu hlt => h.revoked hd hu (Nat.lt_of_lt_of_le hlt hn)⟩

/-- The user has one session, and the cookie names it. -/
def OnlySession (c : Crates) (u : Uuid) (resp : HttpResponse) (w : World) : Prop :=
  ∃ (d : Nat) (s : Session), w.places[d]? = some (some (.session s)) ∧ s.sub = u ∧
    resp.cookie = some (session_cookie c s.id) ∧
    ∀ (d' : Nat) (s' : Session), w.places[d']? = some (some (.session s')) → s'.sub = u → d' = d

/-- Everything of the user's older than place `n` is ended. -/
structure Over (u : Uuid) (n : Nat) (w : World) : Prop where
  session : NoSession u n w
  tokens : Revoked u n w

theorem Calm.works {w : World} {o : Op} (ho : Revocation o) : ¬ Calm c w o .fail :=
  fun h => h.sweeps ho rfl

/-- The first sweep ends every session of the user. -/
theorem revoke_all_for_user_calm (hset : w.Settled 0) (sub : Uuid) :
    EndsE c 0 (Calm c) (SessionService.revoke_all_for_user sub) w
      (fun w' _ => w'.Settled 0 ∧ w'.places.length = w.places.length ∧
        NoSession sub w'.db.length w')
      (fun _ _ => False) := by
  refine endsE_mono (revoke_all_for_user_ends (P := fun l => AllListed sub l w)
    (fun _ _ => Calm.works) hset sub fun ch hch => hch.listing rfl) ?_ fun _ _ h => h
  rintro w' - ⟨l, hl, hp, hset', -⟩
  exact ⟨hset', by rw [hp, List.length_map], no_session_left hset' hl hp⟩

/-- What a successful `change_password` leaves. -/
theorem change_rotates (hset : w.Settled 0) (session : Identity) (req : ChangePasswordRequest)
    (params : SessionParams) :
    Ends c 0 (Calm c) (handlers.change_password c session req params) w fun w' resp =>
      resp.status = 200 → Over session.sub w.db.length w' ∧ OnlySession c session.sub resp w' := by
  have hwork : ∀ (w : World) o, Revocation o → ¬ Calm c w o .fail := fun _ _ => Calm.works
  have hfail : ∀ (w' : World) e, Ends c 0 (Calm c)
      (Prog.ret (auth_error_to_response e) : Handler HttpResponse) w' fun w' resp =>
        resp.status = 200 → Over session.sub w.db.length w' ∧ OnlySession c session.sub resp w' :=
    fun w' e => ends_ret fun hok => absurd hok (auth_error_status e)
  refine ends_run (endsE_mono (change_password_ends hset _) ?_ fun w' e _ => hfail w' e)
  rintro w₁ - ⟨⟨_, _, _, -, -, hp₁⟩, -, hset₁, -⟩
  refine ends_run (endsE_mono (revoke_all_for_user_calm hset₁ session.sub) ?_
    fun _ _ hf => hf.elim)
  rintro w₂ - ⟨hset₂, hlen₂, hnone⟩
  refine ends_run (endsE_retrieve (fun w₃ user hdb₃ hid => ?_) fun w' e _ => hfail w' _)
  have hset₃ : w₃.Settled 0 := by
    rw [World.Settled, hdb₃]
    exact hset₂
  have hp₃ : w₃.places = w₂.places := congrArg (List.map Slot.current) hdb₃
  refine ends_bind (ends_bind (ends_now fun t => ends_ret ?_))
  refine ends_run (endsE_mono (issue_session_ends hset₃ _ params) ?_ fun w' e _ => hfail w' e)
  rintro w₄ id ⟨s, rfl, hsub, -, hp₄, hset₄, -⟩
  refine ends_run (endsE_mono (revoke_all_user_tokens_ends hwork hset₄ session.sub) ?_
    fun _ _ hf => hf.elim)
  rintro w₅ - ⟨hp₅, hset₅, -⟩
  refine ends_ret fun _ => ?_
  have hlen : w.places.length = w₂.places.length := by
    rw [hlen₂, hp₁, List.length_map]
  have hlen₅ : w₅.places.length = w₂.places.length + 1 := by
    rw [hp₅, List.length_map, hp₄, hp₃, List.length_append]
    rfl
  simp only [places_length] at hlen hlen₅
  -- a session that is left is the one just issued
  have honly : ∀ {d : Nat} {x : Session}, w₅.places[d]? = some (some (.session x)) →
      x.sub = session.sub → d = w₂.places.length := by
    intro d x hd hx
    have hy := session_before_revoke hp₅ hd
    rw [hp₄, hp₃] at hy
    by_cases hlt : d < w₂.places.length
    · rw [List.getElem?_append_left hlt] at hy
      have hle := hnone.later (reads_of_places hy) hx
      rw [places_length] at hlt
      omega
    · have hd' := (List.getElem?_eq_some_iff.mp hy).1
      rw [List.length_append, List.length_singleton] at hd'
      omega
  have hnew : w₅.places[w₂.places.length]? = some (some (.session s)) := by
    rw [hp₅, List.getElem?_map, hp₄, hp₃, List.getElem?_append_right (Nat.le_refl _), Nat.sub_self]
    exact congrArg some (rewrite_other rfl)
  refine ⟨⟨⟨by omega, fun {d x} hd hx => ?_⟩, ?_⟩, w₂.places.length, s, hnew, ?_, rfl,
    fun d' s' hd' hs' => honly hd' hs'⟩
  · rw [honly (places_of_reads hset₅ hd) hx, places_length]
    omega
  · exact (all_revoked hset₅ hp₅).mono (by omega)
  · rw [hsub]
    exact hid

/-- What a successful reset leaves. -/
theorem reset_rotates (hset : w.Settled 0) (u : Uuid) :
    Ends c 0 (Calm c) (after_reset u) w fun w' _ => Over u w.db.length w' := by
  have hwork : ∀ (w : World) o, Revocation o → ¬ Calm c w o .fail := fun _ _ => Calm.works
  refine ends_run (endsE_mono (revoke_all_for_user_calm hset u) ?_ fun _ _ hf => hf.elim)
  rintro w₁ - ⟨hset₁, hlen₁, hnone⟩
  refine ends_run (endsE_mono (revoke_all_user_tokens_ends hwork hset₁ u) ?_ fun _ _ hf => hf.elim)
  rintro w₂ - ⟨hp₂, hset₂, -⟩
  have hlen₂ : w₂.places.length = w₁.places.length := by rw [hp₂, List.length_map]
  simp only [places_length] at hlen₁ hlen₂
  refine ends_ret ⟨⟨by omega, fun hd hs => ?_⟩, (all_revoked hset₂ hp₂).mono (by omega)⟩
  have hlater := hnone.later
    (reads_of_places (session_before_revoke hp₂ (places_of_reads hset₂ hd))) hs
  omega

theorem Over.mono {m n : Nat} (h : Over u m w) (hn : n ≤ m) : Over u n w :=
  ⟨⟨Nat.le_trans hn h.session.length, fun hd hs => Nat.le_trans hn (h.session.later hd hs)⟩,
    h.tokens.mono hn⟩

/-- **A rotation ends what there is.** -/
theorem Rotation.over {resp : HttpResponse} (h : Rotation c (Calm c) u w resp w')
    (hset : w.Settled 0) : Over u w.db.length w' := by
  cases h with
  | change h hsub hok =>
      subst hsub
      exact (change_rotates hset _ _ _ _ _ h hok).1
  | @reset payload w w' resp h hu hok =>
      obtain ⟨p, hp, hhash, w₁, h, hrest⟩ := reset_of_success hset h hok
      obtain rfl := hu p hp hhash
      have horderly : Orderly c 0 _ (UserService.confirm_password_reset c
        ⟨payload.token, payload.new_password⟩).run := confirm_password_reset_orderly _
      have hset₁ := horderly.settles hset _ _ h
      refine (reset_rotates hset₁ _ _ _ hrest).mono ?_
      exact h.invariant (P := fun _ => True) (I := fun w₁ => w.db.length ≤ w₁.db.length)
        (uses_mono horderly.uses fun _ _ => trivial)
        (fun _ _ _ _ _ _ _ hans hle => Nat.le_trans hle (length_of_answer hans))
        (Nat.le_refl _)

end Rotation

/-! ### Whole runs -/

section Runs

variable {Reg Cred : Type} {jwt_svc : JwtService} {wa : Webauthn Reg Cred} {w w' : World}
  {served : List (Request Reg Cred × HttpResponse)}

/-- A request that was served in a run, with what came before and after it. -/
theorem Runs.split {c : Crates} {admits : World → Op → Choice → Prop}
    (h : Runs c jwt_svc wa admits w served w') {req : Request Reg Cred} {resp : HttpResponse}
    (hmem : (req, resp) ∈ served) : ∃ before after w₁ w₂, Runs c jwt_svc wa admits w before w₁ ∧
      Prog.Exec (World.answer c) 0 admits (req.handler c jwt_svc wa) w₁ resp w₂ ∧
      Runs c jwt_svc wa admits w₂ after w' := by
  induction h with
  | nil => cases hmem
  | @request req' resp' w w₁ w₂ rest hreq hrest ih =>
      rcases List.mem_cons.mp hmem with heq | hmem
      · cases heq
        exact ⟨[], rest, w, w₁, .nil w, hreq, hrest⟩
      · obtain ⟨before, after, w₃, w₄, hb, hr, ha⟩ := ih hmem
        exact ⟨_ :: before, after, w₃, w₄, .request hreq hb, hr, ha⟩
  | expire e _ ih =>
      obtain ⟨before, after, w₃, w₄, hb, hr, ha⟩ := ih hmem
      exact ⟨before, after, w₃, w₄, .expire e hb, hr, ha⟩

/-- What tame operations keep, the run keeps, as far as it is about the database. -/
theorem Runs.tame {c : Crates} {admits : World → Op → Choice → Prop} {I : World → Prop}
    (h : Runs c jwt_svc wa admits w served w') (hdb : ∀ w w', w'.db = w.db → I w → I w')
    (hstep : ∀ (o : Op) ch w w' r, (∀ {q}, o.statement = some q → Tame q) →
      World.answer c 0 o ch w = some (w', r) → I w → I w') (hw : I w) : I w' :=
  h.invariant (fun req _ w _ hI hrun => req.keeps hstep w hI _ _ hrun)
    (fun e w hI => hdb w _ (World.expire_db e w) hI) hw

theorem Runs.past {c : Crates} {admits : World → Op → Choice → Prop}
    (h : Runs c jwt_svc wa admits w served w') {d : Nat} {r : Record} (hd : w.Past d r) :
    w'.Past d r :=
  h.tame (I := fun w => w.Past d r) (fun _ _ heq hI => by unfold World.Past; rw [heq]; exact hI)
    (fun _ _ _ _ _ _ hans hI => past_of_answer hans hI) hd

theorem Runs.over {c : Crates} {admits : World → Op → Choice → Prop} {u : Uuid} {n : Nat}
    (h : Runs c jwt_svc wa admits w served w') (hw : Over u n w) : Over u n w' := by
  refine h.tame (I := Over u n) (fun w w' heq hI => ?_) (fun _ _ _ _ _ ht hans hI => ?_) hw
  · refine ⟨⟨by rw [heq]; exact hI.session.length, fun hd => ?_⟩,
      ⟨by rw [heq]; exact hI.tokens.length, fun hd => ?_⟩⟩
    · exact hI.session.later (by unfold World.Reads at *; rwa [heq] at hd)
    · exact hI.tokens.revoked (by unfold World.Reads at *; rwa [heq] at hd)
  · exact ⟨hI.session.step ht hans, hI.tokens.step ht hans⟩

/-- The token `raw'` was rotated from `raw`, in any number of steps. -/
inductive Descends (served : List (Request Reg Cred × HttpResponse)) (raw : String) :
    String → Prop where
  | self : Descends served raw raw
  | step {raw' : String} {resp : HttpResponse} {res : JwtResult} (h : Descends served raw raw')
      (hserved : (.refresh ⟨raw'⟩, resp) ∈ served)
      (hres : resp = .json 200 (ApiResponse.success (.jwt res) "Refresh successful")) :
      Descends served raw res.refresh_token

/-- A row for this token, of this user, has been there. -/
def World.Issued (c : Crates) (u : Uuid) (raw : String) (w : World) : Prop :=
  ∃ d t, w.Past d (.refresh_token t) ∧ t.user_id = u ∧ t.token_hash = hash_token c (trim raw)

/-- The schema's unique index on `token_hash`. -/
def UniqueTokens (rows : List Record) : Prop :=
  ∀ {d d' : Nat} {t t' : RefreshToken}, rows[d]? = some (.refresh_token t) →
    rows[d']? = some (.refresh_token t') → t.token_hash = t'.token_hash → d = d'

theorem Running.of {rows : List Record} (hkeys : UniqueTokens rows) : Running (World.of rows) := by
  have hrow : ∀ {d : Nat} {r : Record}, (World.of rows).Reads (.ever Record 0) d r →
      rows[d]? = some r := by
    rintro d r ⟨s, hs, hr⟩
    change (rows.map Slot.loaded)[d]? = some s at hs
    rw [List.getElem?_map] at hs
    obtain ⟨x, hx, rfl⟩ := Option.map_eq_some_iff.mp hs
    rw [hx]
    rcases hr with ⟨y, hy, hrow⟩ | hv
    · cases List.mem_singleton.mp hy
      exact hrow
    · exact hv
  refine ⟨Table.settled_of_idle fun s hs v hv => ?_, fun hd hd' hhash => ?_⟩
  · obtain ⟨r, -, rfl⟩ := List.mem_map.mp hs
    cases hv
  · have heq := hkeys (hrow hd) (hrow hd') hhash
    subst heq
    cases (hrow hd).symm.trans (hrow hd')
    exact ⟨rfl, rfl⟩

/-- A refresh that succeeds, as a request. -/
theorem refreshed_of_exec {cmd : RefreshCmd} {resp : HttpResponse}
    {admits : World → Op → Choice → Prop}
    (hset : w.Settled 0)
    (h : Prog.Exec (World.answer jwt_svc.crates) 0 admits (handlers.refresh jwt_svc cmd) w resp w')
    (hok : resp.status = 200) : ∃ res, Refreshed jwt_svc.crates 0 w cmd w' res ∧
      resp = .json 200 (ApiResponse.success (.jwt res) "Refresh successful") := by
  obtain ⟨r, w₁, hsvc, hrest⟩ := Prog.exec_bind.mp h
  cases r with
  | error e =>
      obtain ⟨rfl, -⟩ := Prog.exec_ret.mp hrest
      cases hok
  | ok res =>
      obtain ⟨rfl, rfl⟩ := Prog.exec_ret.mp hrest
      obtain ⟨-, t, t', hex⟩ := refresh_ends hset cmd _ _ hsvc
      exact ⟨res, hex.refreshed, rfl⟩

/-- The presented token's row, at the place its hash has. -/
theorem Running.presented {u : Uuid} {raw : String} {c : Crates} (hI : Running w)
    (hissued : w.Issued c u raw) {t : RefreshToken} (ht : t ∈ w.sees 0 refresh_tokens)
    (hhash : t.token_hash = hash_token c (trim raw)) :
    t.user_id = u ∧ ∀ {d : Nat} {t₀ : RefreshToken}, w.Past d (.refresh_token t₀) →
      t₀.token_hash = t.token_hash → w.places[d]? = some (some (.refresh_token t)) := by
  obtain ⟨d', hd'⟩ := (mem_sees hI.settled).mp ht
  obtain ⟨d₀, t₀, hpast₀, hu, hhash₀⟩ := hissued
  have hread : w.Reads (.ever Record 0) d' (.refresh_token t) := (past_of_places hd').reads
  refine ⟨?_, fun {d t₁} hpast heq => ?_⟩
  · rw [(hI.keyed hread hpast₀.reads (by rw [hhash, hhash₀])).2, hu]
  · rw [(hI.keyed hpast.reads hread heq).1]
    exact hd'

section Ended

variable {u : Uuid} {w₀ w₁ w₂ : World} {resp : HttpResponse}
  {before after : List (Request Reg Cred × HttpResponse)}

/-- A token handed out for one of the user's is one of theirs too. -/
theorem issued_of_refreshed {c : Crates} {raw : String} {res : JwtResult}
    (hrow : Refreshed c 0 w ⟨raw⟩ w' res) (hI : Running w) (hI₀ : Running w₀)
    (hpast : ∀ {d r}, w.Past d r → w₀.Past d r) (hpast' : ∀ {d r}, w'.Past d r → w₀.Past d r)
    (hissued : w₀.Issued c u raw) : w₀.Issued c u res.refresh_token := by
  obtain ⟨t, ht, hhash, -, t', d', ⟨howner, hhash'⟩, hd'⟩ := hrow
  obtain ⟨d, hd⟩ := (mem_sees hI.settled).mp ht
  obtain ⟨d₀, t₀, hpast₀, hu, hhash₀⟩ := hissued
  have huser : t.user_id = t₀.user_id :=
    (hI₀.keyed (hpast (past_of_places hd)).reads hpast₀.reads (by rw [hhash, hhash₀])).2
  exact ⟨d', t', hpast' (past_of_places hd'), by rw [howner, huser, hu], hhash'⟩

/-- After the rotation, no refresh of a token from before succeeds. -/
theorem no_refresh_of_issued (hI₁ : Running w₁) (hover : Over u w₀.db.length w₁)
    (hpast : ∀ {d r}, w₀.Past d r → w₁.Past d r)
    (h₂ : Runs jwt_svc.crates jwt_svc wa (Calm jwt_svc.crates) w₁ after w₂) {raw : String}
    (hissued : w₀.Issued jwt_svc.crates u raw) {resp' : HttpResponse}
    (hserved : (.refresh ⟨raw⟩, resp') ∈ after) : resp'.status ≠ 200 := by
  intro hok
  obtain ⟨pre, post, wa₁, wb, hpre, hreq, -⟩ := h₂.split hserved
  have hIa := hI₁.runs rfl hpre
  obtain ⟨res, ⟨t, ht, hhash, hrev, -⟩, -⟩ := refreshed_of_exec hIa.settled hreq hok
  obtain ⟨d₀, t₀, hpast₀, hu, hhash₀⟩ := hissued
  have hpasta : wa₁.Past d₀ (.refresh_token t₀) := hpre.past (hpast hpast₀)
  obtain ⟨huser, hplace⟩ := hIa.presented ⟨d₀, t₀, hpasta, hu, hhash₀⟩ ht hhash
  have hd₀ : wa₁.Reads (.live Record 0) d₀ (.refresh_token t) :=
    reads_of_places (hplace hpasta (by rw [hhash₀, hhash]))
  have hlt : d₀ < w₀.db.length := by
    obtain ⟨s, hs, -⟩ := hpast₀
    exact (List.getElem?_eq_some_iff.mp hs).1
  rw [(hpre.over hover).tokens.revoked hd₀ huser hlt] at hrev
  cases hrev

/-- **A rotation ends everything older**, whatever is requested afterwards: the user's sessions
from before are gone, their refresh tokens from before are revoked, and neither these nor tokens
rotated from them are good for a refresh; after `change_password` the one session left is the
one its cookie names. -/
theorem rotation_ends_older (jwt_svc : JwtService) (wa : Webauthn Reg Cred) {rows : List Record}
    (hkeys : UniqueTokens rows)
    (h₀ : Runs jwt_svc.crates jwt_svc wa (Calm jwt_svc.crates) (World.of rows) before w₀)
    (hrot : Rotation jwt_svc.crates (Calm jwt_svc.crates) u w₀ resp w₁)
    (h₂ : Runs jwt_svc.crates jwt_svc wa (Calm jwt_svc.crates) w₁ after w₂) :
    (∀ (d : Nat) (s : Session), w₂.places[d]? = some (some (.session s)) → s.sub = u →
      w₀.db.length ≤ d) ∧
    (∀ (d : Nat) (t : RefreshToken), w₂.places[d]? = some (some (.refresh_token t)) →
      t.user_id = u → d < w₀.db.length → t.revoked = some true) ∧
    (∀ (raw raw' : String) (resp' : HttpResponse), w₀.Issued jwt_svc.crates u raw →
      Descends (before ++ after) raw raw' → (.refresh ⟨raw'⟩, resp') ∈ after →
      resp'.status ≠ 200) ∧
    ((∃ session req params, session.sub = u ∧ resp.status = 200 ∧
        Prog.Exec (World.answer jwt_svc.crates) 0 (Calm jwt_svc.crates)
          (handlers.change_password jwt_svc.crates session req params) w₀ resp w₁) →
      OnlySession jwt_svc.crates u resp w₁) := by
  have hI₀ : Running w₀ := (Running.of hkeys).runs rfl h₀
  have hover := hrot.over hI₀.settled
  have hI₁ : Running w₁ := by
    refine ⟨hrot.invariant (fun hp w hw => hp.settles hw) hI₀.settled,
      hrot.invariant (fun hp => keyed_uses (uses_mono hp.uses fun o ho => ?_)) hI₀.keyed⟩
    exact ho.elim Plain.harmless HashWrite.harmless
  have hpast₁ : ∀ {d r}, w₀.Past d r → w₁.Past d r := by
    intro d r hd
    refine hrot.invariant (I := fun w => w.Past d r) (fun hp => keeps_of_uses hp.uses ?_) hd
    exact fun _ _ _ _ _ _ _ hans hI => past_of_answer hans hI
  have hover₂ := h₂.over hover
  refine ⟨fun d s hd hs => hover₂.session.later (reads_of_places hd) hs,
    fun d t hd hu hlt => hover₂.tokens.revoked (reads_of_places hd) hu hlt, ?_, ?_⟩
  · intro raw raw' resp' hissued hdesc hserved
    refine no_refresh_of_issued hI₁ hover hpast₁ h₂ ?_ hserved
    clear hserved
    induction hdesc with
    | self => exact hissued
    | @step raw' resp'' res h hserved hres ih =>
        have hok : resp''.status = 200 := by rw [hres]; rfl
        rcases List.mem_append.mp hserved with hb | ha
        · obtain ⟨pre, post, wx, wy, hpre, hreq, hpost⟩ := h₀.split hb
          have hIx := (Running.of hkeys).runs rfl hpre
          obtain ⟨res', hrow, heq⟩ := refreshed_of_exec hIx.settled hreq hok
          obtain rfl : res = res' := by
            rw [hres] at heq
            simpa [HttpResponse.json, ApiResponse.success] using heq
          have hpasty : ∀ {d r}, wy.Past d r → w₀.Past d r := fun hd => hpost.past hd
          have hpastx : ∀ {d r}, wx.Past d r → w₀.Past d r := fun hd =>
            (Runs.request hreq hpost).past hd
          exact issued_of_refreshed hrow hIx hI₀ hpastx hpasty ih
        · exact absurd hok (no_refresh_of_issued hI₁ hover hpast₁ h₂ ih ha)
  · rintro ⟨session, req, params, rfl, hok, hexec⟩
    exact (change_rotates hI₀.settled session req params _ _ hexec hok).2

end Ended

end Runs

/-- Nothing fails, nothing is drawn, and a listing names all sessions there are. -/
def still (w : World) (o : Op) (ch : Choice) : Bool :=
  match o with
  | .fill _ => false
  | .list_sessions _ => ch == .sessions (w.places.filterMap fun r => r.bind sessions.prj)
  | _ => ch != .fail

theorem calm_of_still {c : Crates} {w : World} {o : Op} {ch : Choice} (h : still w o ch = true) :
    Calm c w o ch := by
  refine ⟨?_, ?_, ?_⟩
  · rintro (id | u) rfl <;> simp [still] at h
  · rintro u rfl
    refine ⟨_, beq_iff_eq.mp h, fun d s hd _ => List.any_eq_true.mpr ⟨s, ?_, beq_self_eq_true _⟩⟩
    exact List.mem_filterMap.mpr ⟨_, List.mem_of_getElem? hd, sessions.prj_inj s⟩
  · rintro n bytes rfl
    simp [still] at h

/-- Alice changes her password; the refresh token she had is then refused. -/
theorem rotation_ends_older_for_alice : ∃ w₁ w₂ resp resp',
    Rotation sample_crates (Calm sample_crates) 7 (World.of signed_in) resp w₁ ∧
      Runs sample_crates sample_jwt sample_webauthn (Calm sample_crates) w₁
        [(.refresh ⟨token_of 1⟩, resp')] w₂ ∧
      (∀ (d : Nat) (s : Session), w₂.places[d]? = some (some (.session s)) → s.sub = 7 → 3 ≤ d) ∧
      resp'.status ≠ 200 ∧ OnlySession sample_crates 7 resp w₁ := by
  have hchange : ∃ w₁ resp, Prog.exec? (World.answer sample_crates) 0 still smooth_choices
      alice_changes (World.of signed_in) = some (resp, w₁) ∧ resp.status = 200 ∧
      ∃ w₂ resp', Prog.exec? (World.answer sample_crates) 0 still [.go, .go, .go]
        (handlers.refresh sample_jwt ⟨token_of 1⟩) w₁ = some (resp', w₂) :=
    ⟨_, _, rfl, rfl, _, _, rfl⟩
  obtain ⟨w₁, resp, hrun, hok, w₂, resp', hrun'⟩ := hchange
  have hexec := (Prog.exec_of_exec? hrun).mono (fun _ _ _ => calm_of_still (c := sample_crates))
  have hrot : Rotation sample_crates (Calm sample_crates) 7 (World.of signed_in) resp w₁ :=
    .change hexec rfl hok
  have hafter : Runs sample_crates sample_jwt sample_webauthn (Calm sample_crates) w₁
      [(.refresh ⟨token_of 1⟩, resp')] w₂ :=
    .request ((Prog.exec_of_exec? hrun').mono fun _ _ _ => calm_of_still) (.nil _)
  have hkeys : UniqueTokens signed_in := by
    have hat : ∀ {d : Nat} {t : RefreshToken}, signed_in[d]? = some (.refresh_token t) → d = 2 := by
      intro d t h
      rcases d with _ | _ | _ | d <;> simp [signed_in] at h ⊢
    intro d d' t t' hd hd' _
    exact (hat hd).trans (hat hd').symm
  obtain ⟨hsessions, -, hrefresh, honly⟩ :=
    rotation_ends_older sample_jwt sample_webauthn hkeys (.nil _) hrot hafter
  refine ⟨w₁, w₂, resp, resp', hrot, hafter, hsessions, ?_, honly ⟨_, _, _, rfl, hok, hexec⟩⟩
  refine hrefresh (token_of 1) (token_of 1) resp' ?_ .self List.mem_cons_self
  exact ⟨2, sample_token (token_of 1), ⟨_, rfl, _, List.mem_cons_self, rfl⟩, rfl, by decide⟩

end Authnz
