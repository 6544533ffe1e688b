/-
A request for one user leaves every other user's rows.

Most statements name the user they work for, or write a row of theirs.  The others
choose rows by a session id, a token hash or a credential id, and are safe because
every row with that key is the user's: `Private` says so of a statement, for the
keys `K` in question, and `Sheltered` is what such statements keep.
-/
import Authnz.Proofs.Indexes
import Authnz.Proofs.Older
import Authnz.Proofs.Logins

namespace Authnz

open Basis

/-- The user a row belongs to. -/
def Record.owner : Record → Option Uuid
  | .user u => some u.id
  | .session s => some s.sub
  | .refresh_token t => some t.user_id
  | .password_reset p => some p.user_id
  | .passkey_credential k => some k.user_id
  | .event _ => none

/-- What is shown of the rows of other users. -/
def others (u : Uuid) (r : Record) : Option Record :=
  if r.owner = none ∨ r.owner = some u then none else some r

theorem others_mine {u : Uuid} {r : Record} (h : r.owner = some u) : others u r = none :=
  if_pos (.inr h)

theorem others_of_owner {u : Uuid} {r r' : Record} (h : r'.owner = r.owner)
    (hr : others u r = none) : others u r' = none := by
  unfold others at *
  rw [h]
  by_cases ho : r.owner = none ∨ r.owner = some u
  · rw [if_pos ho]
  · rw [if_neg ho] at hr
    cases hr

/-- The rows of every other user are as they were, each at its place, and there are no new ones. -/
def Isolated (u : Uuid) (w w' : World) : Prop :=
  ∀ (d : Nat) (r : Record) (v : Uuid), r.owner = some v → v ≠ u →
    (w'.places[d]? = some (some r) ↔ w.places[d]? = some (some r))

theorem isolated_of_look {u : Uuid} {w w' : World}
    (h : ∀ d, w'.look (others u) d = w.look (others u) d) : Isolated u w w' := by
  have hlook : ∀ {x : World} {d : Nat} {r : Record} {v : Uuid}, r.owner = some v → v ≠ u →
      (x.places[d]? = some (some r) ↔ x.look (others u) d = some r) := by
    intro x d r v hv hne
    have hshown : ∀ {y : Record}, others u y = some r → y = r := by
      intro y hy
      unfold others at hy
      exact Option.some.inj (Option.ite_none_left_eq_some.mp hy).2
    rw [look_of_places]
    constructor
    · intro hd
      rw [hd]
      refine if_neg ?_
      rw [hv]
      rintro (hno | hu)
      · cases hno
      · exact hne (Option.some.inj hu)
    · intro hd
      obtain ⟨y, hy, hshow⟩ := Option.bind_eq_some_iff.mp hd
      obtain ⟨z, hz, rfl⟩ := Option.bind_eq_some_iff.mp hy
      rw [hz, hshown hshow]
  intro d r v hv hne
  rw [hlook hv hne, hlook hv hne, h d]

/-- The statement writes rows of the user, or rows with one of the keys, keeps their owner, and
adds rows of the user alone. -/
structure Private (u : Uuid) (K : Record → Prop) (q : SqlOp Record) : Prop where
  makes : ∀ {old : Record} {v : Option Record}, q.Makes old v →
    (K old ∨ others u old = none) ∧ ∀ r, v = some r → r.owner = old.owner
  inserts : ∀ {r : Record}, q.Inserts r → others u r = none

/-- So does the operation, if it writes. -/
def PrivateOp (u : Uuid) (K : Record → Prop) (o : Op) : Prop :=
  ∀ q, o.statement = some q → Private u K q

/-- Every row with one of the keys, as it is committed or as the caller sees it, is the user's. -/
def World.Claimed (u : Uuid) (K : Record → Prop) (w : World) : Prop :=
  ∀ (d : Nat) (r : Record), w.Reads (.live Record 0) d r → K r → others u r = none

/-- The others' rows are as in `w₀`, and the keys name rows of the user. -/
structure Sheltered (u : Uuid) (K : Record → Prop) (w₀ w : World) : Prop where
  level : w.Level 0 (others u)
  same : ∀ d, w.look (others u) d = w₀.look (others u) d
  mine : w.Claimed u K

section Rules

variable {c : Crates} {admits : World → Op → Choice → Prop} {u : Uuid} {K K' : Record → Prop}
  {w₀ w w' : World} {α : Type}

theorem Sheltered.step {o : Op} {ch : Choice} {r : o.Reply} (ho : PrivateOp u K o)
    (hans : World.answer c 0 o ch w = some (w', r)) (h : Sheltered u K w₀ w) :
    Sheltered u K w₀ w' := by
  have hspare : ∀ {q : SqlOp Record}, o.statement = some q → ∀ {d : Nat} {old : Record}
      {v : Option Record}, w.Reads (.live Record 0) d old → q.Makes old v →
      others u old = none ∧ ∀ r, v = some r → others u r = none := by
    intro q hq d old v hold hm
    obtain ⟨hkey, howner⟩ := (ho q hq).makes hm
    have hmine : others u old = none := hkey.elim (h.mine d old hold) id
    exact ⟨hmine, fun r hr => others_of_owner (howner r hr) hmine⟩
  obtain ⟨hlevel, hsame⟩ := shown_of_answer (fun q hq => ⟨fun {d s old v} hs hv hm => by
    obtain ⟨hold, hnew⟩ := hspare hq ⟨s, hs, .inr hv⟩ hm
    rw [hold]
    cases v with
    | none => rfl
    | some r => exact hnew r rfl, fun hi => (ho q hq).inserts hi⟩) hans h.level
  refine ⟨hlevel, fun d => (hsame d).trans (h.same d), fun d r hd hk => ?_⟩
  rcases reads_of_answer hans hd with hold | ⟨q, old, hq, hold, hm⟩ | ⟨-, q, hq, hi⟩
  · exact h.mine d r hold hk
  · exact (hspare hq hold hm).2 r rfl
  · exact (ho q hq).inserts hi

/-- Private operations leave the others' rows. -/
theorem sheltered_uses {p : Handler α} (hp : p.Uses (PrivateOp u K)) :
    Keeps c 0 admits (Sheltered u K w₀) p :=
  keeps_of_uses hp fun _ _ _ _ _ ho _ hans h => h.step ho hans

theorem Sheltered.start (hset : w.Settled 0) (hmine : w.Claimed u K) : Sheltered u K w w :=
  ⟨hset.level _, fun _ => rfl, hmine⟩

/-- No keys needed. -/
theorem claimed_none : w.Claimed u fun _ => False := fun _ _ _ h => h.elim

theorem Sheltered.claim (h : Sheltered u K w₀ w) (hmine : w.Claimed u K') :
    Sheltered u K' w₀ w := ⟨h.level, h.same, hmine⟩

theorem Sheltered.same_db (h : Sheltered u K w₀ w) (hdb : w'.db = w.db) : Sheltered u K w₀ w' := by
  refine ⟨fun d => ?_, fun d => ?_, fun d r hd => ?_⟩
  · rw [World.look, hdb]
    exact h.level d
  · rw [World.look, hdb]
    exact h.same d
  · unfold World.Reads at hd
    rw [hdb] at hd
    exact h.mine d r hd

/-! ### Statements -/

variable {T : Relation α} {ex : Executor} {p : α → Bool}

theorem private_quiet {o : Op} (ho : World.Quiet o) : PrivateOp u K o := by
  intro q hq
  cases o <;> first | exact ho.elim | cases hq

theorem private_read {q : SqlOp Record} (hm : ∀ old v, ¬ q.Makes old v) (hi : ∀ r, ¬ q.Inserts r) :
    PrivateOp u K (.sql q) := by
  rintro q' ⟨⟩
  exact ⟨fun h => (hm _ _ h).elim, fun h => (hi _ h).elim⟩

theorem private_select {q : Record → Bool} : PrivateOp u K (.sql (.select q)) :=
  private_read (fun _ _ h => h) fun _ h => h

theorem private_begin : PrivateOp u K (.sql .begin) := private_read (fun _ _ h => h) fun _ h => h

theorem private_commit : PrivateOp u K (.sql .commit) := private_read (fun _ _ h => h) fun _ h => h

theorem private_rollback : PrivateOp u K (.sql .rollback) :=
  private_read (fun _ _ h => h) fun _ h => h

theorem private_insert {mk : Uuid → α} (h : ∀ n, (T.inj (mk n)).owner = some u) :
    PrivateOp u K (.sql (.insert ex (fun n => T.inj (mk n)) T.clashes)) := by
  rintro q ⟨⟩
  refine ⟨fun hm => hm.elim, fun hi => ?_⟩
  obtain ⟨key, rfl⟩ := hi
  exact others_mine (h key)

theorem private_update {f : α → α}
    (h : ∀ a, p a = true → K (T.inj a) ∨ (T.inj a).owner = some u)
    (hf : ∀ a, (T.inj (f a)).owner = (T.inj a).owner) :
    PrivateOp u K (.sql (.write ex (T.sel p) (T.set f))) := by
  rintro q ⟨⟩
  refine ⟨fun hm => ?_, fun hi => hi.elim⟩
  obtain ⟨a, rfl, ha, rfl⟩ := makes_set hm
  exact ⟨(h a ha).imp_right others_mine, fun r hr => by rw [← Option.some.inj hr, hf]⟩

theorem private_delete (h : ∀ a, p a = true → K (T.inj a) ∨ (T.inj a).owner = some u) :
    PrivateOp u K (.sql (.write ex (T.sel p) Relation.del)) := by
  rintro q ⟨⟩
  refine ⟨fun hm => ?_, fun hi => hi.elim⟩
  obtain ⟨hp, rfl⟩ := hm
  obtain ⟨a, rfl, ha⟩ := T.sel_iff.mp hp
  exact ⟨(h a ha).imp_right others_mine, fun r hr => nomatch hr⟩

end Rules

/-! ### The services -/

section Services

variable {c : Crates} {u : Uuid} {K : Record → Prop}

theorem session_insert_private (new : NewSession) (h : new.sub = u) :
    PrivateOp u K (session_insert new) := private_insert fun _ => congrArg some h

theorem issue_session_private (user : SessionUser) (params : SessionParams) (h : user.sub = u) :
    (SessionService.issue_session user params).run.Uses (PrivateOp u K) :=
  Prog.uses_bindE (uses_lift (uses_ask (private_quiet trivial))) fun _ =>
    Prog.uses_bindE (uses_attempt (uses_insert (session_insert_private _ h))) fun _ => trivial

theorem session_user_private {α : Type} (user : UserResponse) {g : SessionUser → Handler α}
    (hg : ∀ su : SessionUser, su.sub = user.id → (g su).Uses (PrivateOp u K)) :
    (SessionUser.new user >>= g).Uses (PrivateOp u K) := by
  unfold SessionUser.new
  rw [Prog.bind_assoc]
  exact Prog.uses_bind (uses_ask (private_quiet trivial)) fun t => hg _ rfl

theorem start_session_private (user : User) (params : SessionParams) (h : user.id = u) :
    (handlers.start_session c user params).Uses (PrivateOp u K) := by
  refine session_user_private _ fun su hsu => ?_
  refine Prog.uses_bind (issue_session_private su params (hsu.trans h)) fun r => ?_
  cases r <;> trivial

theorem revoke_all_user_tokens_private :
    (JwtService.revoke_all_user_tokens u).run.Uses (PrivateOp u K) :=
  Prog.uses_bindE (uses_attempt (uses_update (private_update
    (fun _ ht => .inr (congrArg some (beq_iff_eq.mp ht))) fun _ => rfl))) fun _ => trivial

theorem issue_token_pair_with_private (jwt_svc : JwtService) (ex : Executor) (user_id : Uuid)
    (issuer : String) (h : user_id = u) :
    (jwt_svc.issue_token_pair_with ex user_id issuer).run.Uses (PrivateOp u K) :=
  Prog.uses_bindE (uses_attempt (uses_ask (private_quiet trivial))) fun _ =>
    Prog.uses_bindE (uses_lift (Prog.uses_bind (uses_ask (private_quiet trivial))
      fun _ => trivial)) fun _ =>
    Prog.uses_bindE (uses_lift (uses_ask (private_quiet trivial))) fun _ =>
    Prog.uses_bindE (uses_lift (uses_ask (private_quiet trivial))) fun _ =>
    Prog.uses_bindE (uses_attempt (uses_insert (private_insert fun _ => congrArg some h)))
      fun _ => trivial

theorem change_password_private (cmd : ChangePasswordCmd) (h : cmd.user_id = u) :
    (UserService.change_password c cmd).run.Uses (PrivateOp u K) := by
  unfold UserService.change_password
  by_cases hs : c.zxcvbn_score cmd.new_password < 3
  · rw [if_pos hs]
    trivial
  rw [if_neg hs]
  refine Prog.uses_bindE (Prog.uses_bindE (uses_attempt (uses_select private_select))
    fun rows => by cases rows <;> trivial) fun hash => ?_
  dsimp only
  by_cases hv : (!(c.bcrypt_verify cmd.current_password hash).getD false) = true
  · rw [if_pos hv]
    trivial
  rw [if_neg hv]
  refine Prog.uses_bindE (uses_attempt (uses_ask (private_quiet trivial))) fun new_hash => ?_
  refine Prog.uses_bindE (uses_attempt (uses_update (private_update (fun a ha => .inr ?_)
    fun _ => rfl))) fun _ => trivial
  exact congrArg some ((beq_iff_eq.mp ha).trans h)

/-- Deleting a session whose id is one of the keys. -/
theorem session_delete_private (id : Uuid) (h : ∀ s : Session, s.id = id → K (.session s)) :
    (SessionRepo.delete id).run.Uses (PrivateOp u K) :=
  Prog.uses_bindE (uses_attempt (uses_delete (private_delete
    fun s hs => .inl (h s (beq_iff_eq.mp hs))))) fun rows => by cases rows <;> trivial

theorem delete_each_private (l : List Session)
    (h : ∀ x ∈ l, ∀ s : Session, s.id = x.id → K (.session s)) :
    (SessionService.delete_each l).Uses (PrivateOp u K) := by
  induction l with
  | nil => trivial
  | cons x rest ih =>
      exact Prog.uses_bind (session_delete_private x.id (h x List.mem_cons_self)) fun _ =>
        ih fun y hy => h y (List.mem_cons_of_mem x hy)

theorem session_logout_private (session_id : String)
    (h : ∀ id, c.uuid_parse session_id = some id → ∀ s : Session, s.id = id → K (.session s)) :
    (SessionService.logout c session_id).run.Uses (PrivateOp u K) := by
  unfold SessionService.logout
  cases hid : c.uuid_parse session_id with
  | none => trivial
  | some id =>
      refine Prog.uses_bind (session_delete_private id (h id hid)) fun r => ?_
      rcases r with (_ | _) | _ <;> trivial

/-- What a confirmed challenge of the user leads to. -/
theorem start_confirmed_session_private {admits : World → Op → Choice → Prop} {w₀ w : World}
    (params : SessionParams) (hw : Sheltered u K w₀ w) :
    Ends c 0 admits (handlers.start_confirmed_session c u params) w fun w' _ =>
      Sheltered u K w₀ w' := by
  refine ends_run (endsE_retrieve (fun w₁ user hdb huser => ?_) fun w₁ e hdb =>
    ends_ret (hw.same_db hdb))
  refine sheltered_uses ?_ w₁ (hw.same_db hdb)
  have hupdate : PrivateOp u K (.update u ⟨none, some true⟩) := by
    rintro q ⟨⟩
    have hwrite : PrivateOp u K (.sql (.write .pool (users.sel fun v => v.id == u)
        (users.set fun v => v.update ⟨none, some true⟩))) :=
      private_update (fun a ha => .inr (congrArg some (beq_iff_eq.mp ha))) fun _ => rfl
    exact hwrite _ rfl
  refine Prog.uses_bind (uses_ask hupdate) fun _ => session_user_private _ fun su hsu => ?_
  refine Prog.uses_bind (issue_session_private su params (hsu.trans huser)) fun r => ?_
  cases r <;> trivial

end Services

/-! ### The routes -/

section Routes

variable {Reg Cred : Type} {c : Crates} {jwt_svc : JwtService} {wa : Webauthn Reg Cred}
  {admits : World → Op → Choice → Prop} {u : Uuid} {w w₀ w' : World}

/-- The requests that act for user `u`: with an identifier, a cookie, a token or a challenge that
nobody else's account, session, row or entry has, or let in by the middleware as `u`. -/
def Request.acts_for (c : Crates) (jwt_svc : JwtService) (who : Option Identity) (w : World)
    (u : Uuid) : Request Reg Cred → Prop
  | .login req _ => ∀ a ∈ w.rows users, a.email = req.identifier → a.id = u
  | .username_login req _ => ∀ a ∈ w.rows users, a.username = req.identifier → a.id = u
  | .change_password _ _ _ | .jwt _ | .delete_session _ _ | .passkey_register_finish _ _ _
  | .passkey_remove _ _ => ∀ session, who = some session → session.sub = u
  | .logout cookie => ∀ s ∈ w.rows sessions, c.uuid_parse cookie = some s.id → s.sub = u
  | .refresh cmd => ∀ t ∈ w.rows refresh_tokens,
      t.token_hash = hash_token jwt_svc.crates (trim cmd.refresh_token) → t.user_id = u
  | .jwt_logout cmd => ∀ t ∈ w.rows refresh_tokens,
      t.token_hash = hash_token jwt_svc.crates (trim cmd.refresh_token) → t.user_id = u
  | .request_password_reset req => ∀ a ∈ w.rows users, a.email = req.email → a.id = u
  | .confirm_password_reset payload => ∀ p ∈ w.rows password_resets,
      p.token_hash = hash_token c payload.token → p.user_id = u
  | .confirm link _ => ∀ e, w.links link = some e → e.email = u
  | .confirm_token _ nonce _ => ∀ e, w.tokens nonce = some e → e.email = u
  | .passkey_login_finish username _ _ =>
      ∀ a ∈ w.rows users, a.username = trim username → a.id = u
  | _ => False

/-- A row of an indexed table that can be read is there. -/
theorem Indexed.row_of_reads {α : Type} {T : Relation α} (h : Indexed T w) {d : Nat} {a : α}
    (hd : w.Reads (.live Record 0) d (T.inj a)) : w.row T d = some a := by
  obtain ⟨s, hs, hc | hv⟩ := hd
  · rw [World.row, hs, Option.bind_some, hc]
    exact T.prj_inj a
  · rw [← h.steady d, World.rowSeen, hs, Option.bind_some, hv]
    exact T.prj_inj a

/-- A key of one of the user's rows names no other's. -/
theorem Indexed.claimed {α : Type} {T : Relation α} (h : Indexed T w) {q : α → Prop}
    {K : Record → Prop} (hK : ∀ r, K r → ∃ a, r = T.inj a ∧ q a)
    (hq : ∀ a, q a → ∃ b ∈ w.rows T, T.clash a b = true ∧ (T.inj b).owner = some u) :
    w.Claimed u K := by
  intro d r hd hk
  obtain ⟨a, rfl, ha⟩ := hK r hk
  have hrow := h.row_of_reads hd
  obtain ⟨b, hb, hclash, howner⟩ := hq a ha
  obtain ⟨d', hd'⟩ := mem_rows_iff.mp hb
  obtain rfl := h.unique hrow hd' hclash
  obtain rfl := Option.some.inj (hrow.symm.trans hd')
  exact others_mine howner

/-- The sessions with one of these ids. -/
def SessionKey (ids : Uuid → Prop) (r : Record) : Prop := ∃ s, r = .session s ∧ ids s.id

theorem Indexed.claimed_sessions (h : Indexed sessions w) {ids : Uuid → Prop}
    (hids : ∀ s ∈ w.rows sessions, ids s.id → s.sub = u) : w.Claimed u (SessionKey ids) := by
  rintro d r hd ⟨s, rfl, hs⟩
  exact others_mine (congrArg some (hids s (mem_rows_iff.mpr ⟨d, h.row_of_reads hd⟩) hs))

/-- Rows of a table with no transaction open, by their key. -/
theorem claimed_of_rows {α : Type} {T : Relation α} (hset : w.Settled 0) {q : α → Prop}
    {K : Record → Prop} (hK : ∀ r, K r → ∃ a, r = T.inj a ∧ q a)
    (h : ∀ a ∈ w.rows T, q a → (T.inj a).owner = some u) : w.Claimed u K := by
  intro d r hd hk
  obtain ⟨a, rfl, ha⟩ := hK r hk
  refine others_mine (h a (mem_rows_iff.mpr ⟨d, ?_⟩) ha)
  rw [row_iff_places]
  exact places_of_reads hset hd

/-- The login finds an account with this identifier. -/
theorem credentials_find (q : String → User → Bool) (cmd : PasswordLoginCmd) :
    EndsE c 0 admits (credentials c q cmd) w
      (fun w' a => w' = w ∧ a ∈ w.sees 0 users ∧ q cmd.username a = true) (fun w' _ => w' = w) := by
  unfold credentials
  by_cases he : (cmd.username.isEmpty || cmd.password.isEmpty) = true
  · rw [if_pos he]
    exact endsE_throw rfl
  rw [if_neg he]
  refine endsE_bind (endsE_bind (endsE_select ?_ fun _ _ => rfl))
  cases hrows : (w.sees 0 users).filter (q cmd.username) with
  | nil => exact endsE_throw rfl
  | cons a rest =>
      have ha : a ∈ (w.sees 0 users).filter (q cmd.username) := by
        rw [hrows]
        exact List.mem_cons_self
      obtain ⟨hsees, hq⟩ := List.mem_filter.mp ha
      refine endsE_ret ?_
      cases c.bcrypt_verify cmd.password a.password_hash with
      | none => exact endsE_throw rfl
      | some b =>
          cases b with
          | true => exact endsE_ret ⟨rfl, hsees, hq⟩
          | false => exact endsE_throw rfl

/-- A login of the user starts a session of theirs. -/
theorem login_isolated {q : String → User → Bool} {cmd : PasswordLoginCmd} (params : SessionParams)
    (hset : w.Settled 0) (hacts : ∀ a ∈ w.rows users, q cmd.username a = true → a.id = u) :
    Ends c 0 admits (do
      match ← (credentials c q cmd).run with
      | .ok user => handlers.start_session c user params
      | .error e => return auth_error_to_response e) w fun w' _ =>
        Sheltered u (fun _ => False) w w' := by
  have hstart : Sheltered u (fun _ => False) w w := .start hset claimed_none
  refine ends_run (endsE_mono (credentials_find q cmd) ?_ ?_)
  · intro w₁ a hpost
    obtain ⟨hw₁, ha, hq⟩ := hpost
    subst hw₁
    exact sheltered_uses (start_session_private a params
      (hacts a ((mem_sees_rows hset).mp ha) hq)) _ hstart
  · intro w₁ e hw₁
    subst hw₁
    exact ends_ret hstart

/-- The sweep of the user's sessions. -/
theorem revoke_all_for_user_isolated {K : Record → Prop} (hindex : Indexed sessions w)
    (hw : Sheltered u K w₀ w) :
    Ends c 0 admits (SessionService.revoke_all_for_user u).run w fun w' _ =>
      Sheltered u (fun _ => False) w₀ w' := by
  have hnone : ∀ {K : Record → Prop} {w : World}, Sheltered u K w₀ w →
      Sheltered u (fun _ => False) w₀ w := fun h => h.claim claimed_none
  refine ends_of_endsE (endsE_bind (endsE_list (fun l _ hl => endsE_lift ?_) fun _ _ => hnone hw))
  have hclaim : w.Claimed u (SessionKey fun id => ∃ x ∈ l, x.id = id) := by
    refine hindex.claimed_sessions fun s hs hid => ?_
    obtain ⟨x, hx, hxid⟩ := hid
    exact (World.owner_of_lists hl hx).2 s hs hxid.symm
  exact ends_mono (sheltered_uses (delete_each_private l fun x hx s hs => ⟨s, rfl, x, hx, hs.symm⟩) w
    (hw.claim hclaim)) fun _ _ h => hnone h

/-! ### Transactions -/

variable {K : Record → Prop}

theorem owner_of_others {r : Record} {v : Uuid} (h : others u r = none) (hv : r.owner = some v) :
    v = u := by
  unfold others at h
  rw [hv] at h
  by_contra hne
  rw [if_neg] at h
  · cases h
  · rintro (hno | hu)
    · cases hno
    · exact hne (Option.some.inj hu)

/-- A row in sight with one of the keys is the user's. -/
theorem Sheltered.seen {α : Type} {T : Relation α} (h : Sheltered u K w₀ w) {a : α}
    (ha : a ∈ w.sees 0 T) (hk : K (T.inj a)) : others u (T.inj a) = none := by
  obtain ⟨d, hd⟩ := mem_sees_iff.mp ha
  obtain ⟨r, hr, hprj⟩ := Option.bind_eq_some_iff.mp hd
  obtain ⟨s, hs, hv⟩ := Option.bind_eq_some_iff.mp hr
  obtain rfl := T.inj_of_prj hprj
  exact h.mine d _ ⟨s, hs, .inr hv⟩ hk

/-- A service function of private operations. -/
theorem endsE_private {ε α : Type} {p : Service ε α} {Q : World → α → Prop} {E : World → ε → Prop}
    (hp : p.run.Uses (PrivateOp u K)) (hw : Sheltered u K w₀ w)
    (hQ : ∀ w' a, Sheltered u K w₀ w' → Q w' a) (hE : ∀ w' e, Sheltered u K w₀ w' → E w' e) :
    EndsE c 0 admits p w Q E := by
  intro r w' hrun
  have hw' := sheltered_uses hp w hw r w' hrun
  cases r with
  | ok a => exact hQ w' a hw'
  | error e => exact hE w' e hw'

/-- A private `UPDATE`, with the rows it returns. -/
theorem endsE_update_private {ε α : Type} {T : Relation α} {ex : Executor} {p : α → Bool}
    {f : α → α} {err : DbError → ε} {Q : World → List α → Prop} {E : World → ε → Prop}
    (hp : PrivateOp u K (.sql (.write ex (T.sel p) (T.set f)))) (hw : Sheltered u K w₀ w)
    (hQ : ∀ w', Sheltered u K w₀ w' → Q w' (((w.sees 0 T).filter p).map f))
    (hE : ∀ w' e, Sheltered u K w₀ w' → E w' e) :
    EndsE c 0 admits (attempt err (update_set T ex p f)) w Q E := by
  have hrows : EndsE c 0 admits (attempt err (update_set T ex p f)) w
      (fun _ rows => rows = ((w.sees 0 T).filter p).map f) fun _ _ => True :=
    endsE_update (fun _ _ _ => rfl) fun _ _ => trivial
  intro r w' hrun
  have hw' := sheltered_uses (uses_attempt (uses_update hp)) w hw r w' hrun
  have hr := hrows r w' hrun
  cases r with
  | ok rows =>
      obtain rfl : rows = _ := hr
      exact hQ w' hw'
  | error e => exact hE w' e hw'

/-- The end of a transaction gives nothing of another user's away. -/
theorem endsE_tx_private {ε α : Type} {body : Service ε α} {Q : α → Prop}
    (h : EndsE c 0 admits body w (fun w' a => Sheltered u K w₀ w' ∧ Q a)
      fun w' _ => Sheltered u K w₀ w') :
    EndsE c 0 admits (in_tx body) w (fun w' a => Sheltered u K w₀ w' ∧ Q a)
      fun w' _ => Sheltered u K w₀ w' := by
  refine ends_bind (ends_mono h fun w₁ r hr => ends_bind (ends_ask fun ch w₂ x _ hans => ends_ret ?_))
  cases r with
  | ok a => exact ⟨hr.1.step private_rollback hans, hr.2⟩
  | error e => exact hr.step private_rollback hans

theorem request_password_reset_isolated (cmd : RequestPasswordResetCmd) (hset : w.Settled 0)
    (hacts : ∀ a ∈ w.rows users, a.email = cmd.email → a.id = u) :
    Ends c 0 admits (UserService.request_password_reset c cmd).run w fun w' _ =>
      Sheltered u (fun _ => False) w w' := by
  have hstart : Sheltered u (fun _ => False) w w := .start hset claimed_none
  refine ends_of_endsE (endsE_bind (endsE_select ?_ fun _ _ => hstart))
  cases hrows : (w.sees 0 users).filter fun a => a.email == cmd.email with
  | nil => exact endsE_ret hstart
  | cons a rest =>
      have ha : a ∈ (w.sees 0 users).filter fun a => a.email == cmd.email := by
        rw [hrows]
        exact List.mem_cons_self
      obtain ⟨hsees, hemail⟩ := List.mem_filter.mp ha
      have hid : a.id = u := hacts a ((mem_sees_rows hset).mp hsees) (beq_iff_eq.mp hemail)
      refine endsE_private ?_ hstart (fun _ _ h => h) fun _ _ h => h
      refine Prog.uses_bindE (uses_lift (Prog.uses_bind (uses_ask (private_quiet trivial))
        fun _ => trivial)) fun raw => ?_
      refine Prog.uses_bindE (uses_lift (uses_ask (private_quiet trivial))) fun now => ?_
      refine Prog.uses_bindE (uses_attempt (uses_ask private_begin)) fun _ => ?_
      refine uses_in_tx ?_ private_rollback
      refine Prog.uses_bindE (uses_attempt (uses_insert (private_insert
        fun _ => congrArg some hid))) fun _ => ?_
      refine Prog.uses_bindE (uses_attempt (uses_insert ?_)) fun _ =>
        uses_attempt (uses_ask private_commit)
      rintro q ⟨⟩
      refine ⟨fun hm => hm.elim, fun hi => ?_⟩
      obtain ⟨-, rfl⟩ := hi
      rfl

/-- The rows of this token hash. -/
def ResetKey (hash : String) (r : Record) : Prop := ∃ p, r = .password_reset p ∧ p.token_hash = hash

def TokenKey (hash : String) (r : Record) : Prop := ∃ t, r = .refresh_token t ∧ t.token_hash = hash

/-- The reset a token of the user finds is theirs. -/
theorem confirm_password_reset_isolated (cmd : ConfirmPasswordResetCmd)
    (hw : Sheltered u (ResetKey (hash_token c cmd.token)) w₀ w) :
    EndsE c 0 admits (UserService.confirm_password_reset c cmd) w
      (fun w' id => Sheltered u (ResetKey (hash_token c cmd.token)) w₀ w' ∧ id = u)
      (fun w' _ => Sheltered u (ResetKey (hash_token c cmd.token)) w₀ w') := by
  unfold UserService.confirm_password_reset
  by_cases hs : c.zxcvbn_score cmd.new_password < 3
  · rw [if_pos hs]
    exact endsE_throw hw
  rw [if_neg hs]
  refine endsE_bind (endsE_lift (ends_now fun now => ?_))
  refine endsE_bind (endsE_begin ?_ fun _ _ => hw)
  refine endsE_tx_private (endsE_bind (endsE_update_private (private_update
    (fun p hp => .inl ⟨p, rfl, redeemable_hash hp⟩) fun _ => rfl) hw (fun w₁ hw₁ => ?_)
    fun _ _ h => h))
  generalize hrows : ((w.sees 0 password_resets).filter _).map _ = rows
  cases rows with
  | nil => exact endsE_throw hw₁
  | cons reset rest =>
      have howner : reset.user_id = u := by
        obtain ⟨p, ps, hp, hreset, -⟩ := List.map_eq_cons_iff.mp hrows
        have hmem := List.mem_filter.mp (hp ▸ List.mem_cons_self)
        have hmine := hw.seen hmem.1 ⟨p, rfl, redeemable_hash hmem.2⟩
        rw [← hreset]
        exact owner_of_others hmine rfl
      refine endsE_bind (endsE_bcrypt_hash (fun salt => ?_) fun _ => hw₁)
      have hwrite : ∀ hash, PrivateOp u (ResetKey (hash_token c cmd.token)) (.sql (.write .tx
          (users.sel fun a => a.id == reset.user_id) (users.set (·.with_hash_at hash now)))) :=
        fun hash => private_update
          (fun a ha => .inr (congrArg some ((beq_iff_eq.mp ha).trans howner))) fun _ => rfl
      refine endsE_bind (endsE_private (uses_attempt (uses_update (hwrite _))) hw₁
        (fun w₂ _ hw₂ => ?_) fun _ _ h => h)
      refine endsE_bind (endsE_private (uses_attempt (uses_ask private_commit)) hw₂
        (fun w₃ _ hw₃ => ?_) fun _ _ h => h)
      exact endsE_ret ⟨hw₃, howner⟩

theorem get_refresh_token_by_hash_isolated {hash : String} (hw : Sheltered u (TokenKey hash) w₀ w) :
    EndsE c 0 admits (JwtService.get_refresh_token_by_hash hash) w
      (fun w' row => Sheltered u (TokenKey hash) w₀ w' ∧ row.user_id = u)
      (fun w' _ => Sheltered u (TokenKey hash) w₀ w') := by
  refine endsE_bind (endsE_select ?_ fun _ _ => hw)
  cases hrows : (w.sees 0 refresh_tokens).filter fun t => t.token_hash == hash with
  | nil => exact endsE_throw hw
  | cons t rest =>
      obtain ⟨hsees, hhash⟩ := List.mem_filter.mp (hrows ▸ List.mem_cons_self)
      dsimp only
      cases t.revoked with
      | none => exact endsE_throw hw
      | some revoked =>
          refine endsE_ret ⟨hw, ?_⟩
          exact owner_of_others (hw.seen hsees ⟨t, rfl, beq_iff_eq.mp hhash⟩) rfl

/-- A logout revokes a token of the user. -/
theorem jwt_logout_isolated (cmd : LogoutCmd)
    (hw : Sheltered u (TokenKey (hash_token jwt_svc.crates (trim cmd.refresh_token))) w₀ w) :
    Ends c 0 admits (jwt_svc.logout cmd).run w fun w' _ =>
      Sheltered u (TokenKey (hash_token jwt_svc.crates (trim cmd.refresh_token))) w₀ w' := by
  unfold JwtService.logout
  dsimp only
  generalize trim cmd.refresh_token = raw at hw ⊢
  by_cases he : raw.isEmpty = true
  · rw [if_pos he]
    exact ends_ret hw
  rw [if_neg he]
  refine sheltered_uses ?_ w hw
  refine Prog.uses_bind (Prog.uses_bindE (uses_attempt (uses_update (private_update
    (fun t ht => .inl ⟨t, rfl, beq_iff_eq.mp ht⟩) fun _ => rfl))) fun rows => ?_) fun r => ?_
  · by_cases hl : rows.length = 0
    · rw [if_pos hl]
      trivial
    · rw [if_neg hl]
      trivial
  · rcases r with e | _
    · cases e <;> trivial
    · trivial

/-- The row a refresh finds is the user's, and so is the one it leaves. -/
theorem refresh_isolated (cmd : RefreshCmd)
    (hw : Sheltered u (TokenKey (hash_token jwt_svc.crates (trim cmd.refresh_token))) w₀ w) :
    Ends c 0 admits (jwt_svc.refresh cmd).run w fun w' _ =>
      Sheltered u (TokenKey (hash_token jwt_svc.crates (trim cmd.refresh_token))) w₀ w' := by
  unfold JwtService.refresh
  dsimp only
  generalize trim cmd.refresh_token = raw at hw ⊢
  refine ends_of_endsE ?_
  by_cases he : raw.isEmpty = true
  · rw [if_pos he]
    exact endsE_throw hw
  rw [if_neg he]
  refine endsE_bind (endsE_begin ?_ fun _ _ => hw)
  refine endsE_mono (endsE_tx_private (Q := fun _ => True) ?_) (fun _ _ h => h.1) fun _ _ h => h
  refine endsE_bind (endsE_mono (get_refresh_token_by_hash_isolated hw) ?_ fun _ _ h => h)
  intro w₁ row hpost
  obtain ⟨hw₁, howner⟩ := hpost
  by_cases hr : row.revoked = true
  · rw [if_pos hr]
    exact endsE_throw hw₁
  rw [if_neg hr]
  refine endsE_bind (endsE_lift (ends_now fun now => ?_))
  by_cases hx : row.expires_at < now
  · rw [if_pos hx]
    exact endsE_throw hw₁
  rw [if_neg hx]
  refine endsE_bind (endsE_retrieve (fun w₂ user hdb huser => ?_) fun w₂ _ hdb => hw₁.same_db hdb)
  refine endsE_private ?_ (hw₁.same_db hdb) (fun _ _ h => ⟨h, trivial⟩) fun _ _ h => h
  refine Prog.uses_bindE (Prog.uses_bindE (uses_attempt (uses_delete (private_delete
    fun t ht => .inl ⟨t, rfl, beq_iff_eq.mp ht⟩))) fun _ => trivial) fun _ => ?_
  refine Prog.uses_bindE (issue_token_pair_with_private _ _ _ _ (huser.trans howner)) fun _ => ?_
  exact Prog.uses_bindE (uses_attempt (uses_ask private_commit)) fun _ => trivial

/-! ### Passkeys -/

/-- The rows filed under this credential. -/
def PasskeyKey (credential_id : String) (r : Record) : Prop :=
  ∃ p, r = .passkey_credential p ∧ p.credential_id = credential_id

theorem update_credential_private (k : Passkey) :
    (CredsRepo.update_credential wa k).run.Uses (PrivateOp u (PasskeyKey (credential_id_b64 k))) := by
  unfold CredsRepo.update_credential
  dsimp only
  cases wa.to_string k with
  | none => trivial
  | some data =>
      refine Prog.uses_bindE (uses_lift (uses_ask (private_quiet trivial))) fun now => ?_
      exact Prog.uses_bindE (uses_attempt (uses_update (private_update
        (fun p hp => .inl ⟨p, rfl, beq_iff_eq.mp hp⟩) fun _ => rfl))) fun _ => trivial

/-- The counter a login writes back is that of a passkey of the user. -/
theorem refresh_counter_isolated (hids : wa.KeepsId) (hkeys : KeysSound wa w)
    (hw : Sheltered u (fun _ => False) w₀ w) (result : AuthenticationResult) :
    Ends c 0 admits (passkey_login.refresh_counter wa u result) w fun w' _ =>
      Sheltered u (fun _ => False) w₀ w' := by
  refine ends_run (endsE_mono (credentials_for_user_ends u) ?_ ?_)
  · intro w₁ creds hpost
    obtain ⟨hw₁, hcreds⟩ := hpost
    subst hw₁
    dsimp only
    cases hfind : creds.find? fun k => k.cred_id == result.cred_id with
    | none => exact ends_ret hw
    | some k =>
        obtain ⟨p, hp, howner, hdata⟩ := hcreds k (List.mem_of_find?_eq_some hfind)
        dsimp only
        rcases hup : wa.update_credential k result with _ | ⟨_ | _, k'⟩
        · exact ends_ret hw
        · exact ends_ret hw
        · have hrow : p ∈ w₁.rows passkey_credentials := (mem_sees_rows hkeys.settled).mp hp
          have hkey : p.credential_id = credential_id_b64 k' := by
            obtain ⟨d, hd⟩ := mem_rows_iff.mp hrow
            rw [hkeys.filed.coherent hd hdata, credential_id_b64, credential_id_b64, hids hup]
          have hclaim : w₁.Claimed u (PasskeyKey (credential_id_b64 k')) :=
            hkeys.passkey_keys.claimed (fun _ hr => hr) fun a ha =>
              ⟨p, hrow, by simp [passkey_credentials, ha, hkey], congrArg some howner⟩
          exact ends_bind (ends_mono (sheltered_uses (update_credential_private k') w₁
            (hw.claim hclaim)) fun _ _ h => ends_ret (h.claim claimed_none))
  · intro w₁ e hw₁
    subst hw₁
    exact ends_ret hw

theorem login_finish_isolated (hids : wa.KeepsId) (hkeys : KeysSound wa w) (username : String)
    (credential : Cred) (params : SessionParams)
    (hacts : ∀ a ∈ w.rows users, a.username = trim username → a.id = u) :
    Ends c 0 admits (passkey_login.finish c wa username credential params) w fun w' _ =>
      Sheltered u (fun _ => False) w w' := by
  have hstart : Sheltered u (fun _ => False) w w := .start hkeys.settled claimed_none
  unfold passkey_login.finish
  refine ends_run (endsE_mono (get_user_by_username_ends _) ?_ ?_)
  · intro w₁ user hpost
    obtain ⟨hw₁, hsees, hname⟩ := hpost
    subst hw₁
    obtain rfl := hacts user ((mem_sees_rows hkeys.settled).mp hsees) hname
    refine ends_bind (ends_mono (take_auth_state_ends _) ?_)
    intro w₂ got hpost
    obtain ⟨hdb, _, _⟩ := hpost
    have hw₂ := hstart.same_db hdb
    cases got with
    | none => exact ends_ret hw₂
    | some auth_state =>
        dsimp only
        cases wa.finish_passkey_authentication credential auth_state with
        | error e => exact ends_ret hw₂
        | ok result =>
            refine ends_bind (ends_mono (refresh_counter_isolated hids (hkeys.of_db hdb) hw₂ _) ?_)
            intro w₃ _ hw₃
            exact sheltered_uses (start_session_private user params rfl) w₃ hw₃
  · intro w₁ e hw₁
    subst hw₁
    exact ends_ret hstart

/-! ### Every route -/

theorem hash_write_indexed {α : Type} {p : Handler α}
    (hp : Orderly c 0 (fun o => Plain o ∨ HashWrite o) p) :
    Keeps c 0 admits (Indexed sessions) p := by
  refine keeps_of_uses hp.uses fun w o ch w' r ho _ hans h => ?_
  refine h.step sessions_clash_comm (fun q hq => ?_) hans
  rcases ho with ho | ho
  · exact ho.keeps_sessions hq
  · cases ho <;> cases hq <;> exact .apart (apart_set (U := users) fun _ => rfl)

theorem change_password_isolated (hkeys : KeysSound wa w) (session : Identity)
    (req : ChangePasswordRequest) (params : SessionParams) (hsub : session.sub = u) :
    Ends c 0 admits (handlers.change_password c session req params) w fun w' _ =>
      Sheltered u (fun _ => False) w w' := by
  subst hsub
  have hstart : Sheltered session.sub (fun _ => False) w w := .start hkeys.settled claimed_none
  refine ends_run fun r w₁ hrun => ?_
  have hw₁ := sheltered_uses (change_password_private _ rfl) w hstart r w₁ hrun
  have hindex : Indexed sessions w₁ :=
    hash_write_indexed (change_password_orderly _) w hkeys.session_ids r w₁ hrun
  cases r with
  | error e => exact ends_ret hw₁
  | ok _ =>
      refine ends_bind (ends_mono (revoke_all_for_user_isolated hindex hw₁) fun w₂ _ hw₂ => ?_)
      refine ends_run (endsE_retrieve (fun w₃ user hdb huser => ?_) fun w₃ e hdb =>
        ends_ret (hw₂.same_db hdb))
      refine sheltered_uses (session_user_private _ fun su hsu => ?_) w₃ (hw₂.same_db hdb)
      refine Prog.uses_bind (issue_session_private su params (hsu.trans huser)) fun r => ?_
      cases r with
      | error e => trivial
      | ok id => exact Prog.uses_bind revoke_all_user_tokens_private fun _ => trivial

theorem confirm_password_reset_handler_isolated (hkeys : KeysSound wa w)
    (payload : PasswordResetConfirmRequest)
    (hw : Sheltered u (ResetKey (hash_token c payload.token)) w₀ w) :
    Ends c 0 admits (handlers.confirm_password_reset c payload) w fun w' _ =>
      Sheltered u (fun _ => False) w₀ w' := by
  refine ends_run fun r w₁ hrun => ?_
  have hsvc := confirm_password_reset_isolated ⟨payload.token, payload.new_password⟩ hw r w₁ hrun
  have hindex : Indexed sessions w₁ :=
    hash_write_indexed (confirm_password_reset_orderly _) w hkeys.session_ids r w₁ hrun
  cases r with
  | error e => exact ends_ret (hsvc.claim claimed_none)
  | ok id =>
      obtain ⟨hw₁, rfl⟩ := hsvc
      refine ends_bind (ends_mono (revoke_all_for_user_isolated hindex hw₁) fun w₂ _ hw₂ => ?_)
      refine sheltered_uses ?_ w₂ hw₂
      exact Prog.uses_bind revoke_all_user_tokens_private fun _ => trivial

theorem logout_isolated (hkeys : KeysSound wa w) (cookie : String)
    (hacts : ∀ s ∈ w.rows sessions, c.uuid_parse cookie = some s.id → s.sub = u) :
    Ends c 0 admits (session_middleware cookie fun _ => handlers.logout c (some cookie)) w
      fun w' _ => Sheltered u (fun _ => False) w w' := by
  have hstart : Sheltered u (fun _ => False) w w := .start hkeys.settled claimed_none
  refine ends_middleware (fun session _ => ?_) hstart
  have hclaim : w.Claimed u (SessionKey fun i => c.uuid_parse cookie = some i) :=
    hkeys.session_ids.claimed_sessions hacts
  refine ends_mono (sheltered_uses ?_ w (hstart.claim hclaim)) fun _ _ h => h.claim claimed_none
  refine Prog.uses_bind (session_logout_private cookie fun i hi x hx => ⟨x, rfl, ?_⟩) fun r => by
    cases r <;> trivial
  rw [hx]
  exact hi

theorem delete_session_isolated (hkeys : KeysSound wa w) (id : Uuid) (session : Identity)
    (hsub : session.sub = u) :
    Ends c 0 admits (handlers.delete_session id session) w fun w' _ =>
      Sheltered u (fun _ => False) w w' := by
  have hstart : Sheltered u (fun _ => False) w w := .start hkeys.settled claimed_none
  refine ends_run (ends_ask fun ch w₁ r _ hans => ?_)
  obtain ⟨rfl, hr⟩ := World.answer_retrieve_session hans
  change Except SessionRepo.Error Session at r
  cases r with
  | error e => cases e <;> exact ends_ret hstart
  | ok s =>
      obtain ⟨hid, hshows⟩ := hr s rfl
      dsimp only
      by_cases hs : s.sub ≠ session.sub
      · rw [if_pos hs]
        exact ends_ret hstart
      rw [if_neg hs]
      have hclaim : w₁.Claimed u (SessionKey fun i => i = id) := by
        refine hkeys.session_ids.claimed_sessions fun t ht htid => ?_
        rw [World.owner_of_shows hshows ht (htid.trans hid.symm), not_not.mp hs, hsub]
      refine ends_mono (sheltered_uses ?_ w₁ (hstart.claim hclaim)) fun _ _ h => h.claim claimed_none
      refine Prog.uses_bind (session_delete_private id fun x hx => ⟨x, rfl, hx⟩) fun r => ?_
      rcases r with (_ | _) | _ <;> trivial

theorem register_finish_private (session : Identity) (label : Option String) (credential : Reg) :
    (passkey_register.finish c wa session label credential).Uses
      (PrivateOp session.sub fun _ => False) := by
  have htake : (PasskeyState.take_reg_state c session.sub).Uses
      (PrivateOp session.sub fun _ => False) := by
    refine Prog.uses_bind (uses_ask (private_quiet trivial)) fun got => ?_
    rcases got with e | _ | timed
    · trivial
    · trivial
    · exact Prog.uses_bind (uses_ask (private_quiet trivial)) fun _ => Prog.uses_bind
        (Prog.uses_bind (uses_ask (private_quiet trivial)) fun _ => trivial) fun _ => trivial
  refine Prog.uses_bind htake fun got => ?_
  cases got with
  | none => trivial
  | some reg_state =>
      dsimp only
      cases wa.finish_passkey_registration credential reg_state with
      | error e => trivial
      | ok passkey =>
          refine Prog.uses_bind ?_ fun r => by cases r <;> trivial
          unfold CredsRepo.insert_credential
          dsimp only
          cases wa.to_string passkey with
          | none => trivial
          | some data =>
              refine Prog.uses_bindE (uses_lift (uses_ask (private_quiet trivial))) fun now => ?_
              exact Prog.uses_bindE (uses_attempt (uses_insert (private_insert fun _ => rfl)))
                fun _ => trivial

theorem register_remove_private (session : Identity) (row_id : Uuid) :
    (passkey_register.remove session row_id).Uses (PrivateOp session.sub fun _ => False) := by
  refine Prog.uses_bind (Prog.uses_bindE (uses_attempt (uses_delete (private_delete
    fun p hp => .inr ?_))) fun _ => trivial) fun r => by rcases r with _ | _ | _ <;> trivial
  simp only [Bool.and_eq_true, beq_iff_eq] at hp
  exact congrArg some hp.2

/-- A confirmed challenge is the user's. -/
theorem confirmed_isolated (params : SessionParams)
    {svc : Service PasswdlessError Uuid} (hset : w.Settled 0)
    (hsvc : EndsE c 0 admits svc w (fun w' id => w'.db = w.db ∧ id = u) fun w' _ => w'.db = w.db) :
    Ends c 0 admits (do
      match ← svc.run with
      | .error e => return translate_error e
      | .ok user_id => handlers.start_confirmed_session c user_id params) w fun w' _ =>
        Sheltered u (fun _ => False) w w' := by
  have hstart : Sheltered u (fun _ => False) w w := .start hset claimed_none
  refine ends_run (endsE_mono hsvc ?_ fun w₁ e hdb => ends_ret (hstart.same_db hdb))
  intro w₁ id hpost
  obtain ⟨hdb, hid⟩ := hpost
  subst hid
  exact start_confirmed_session_private params (hstart.same_db hdb)

theorem confirm_link_finds {link : String} (hacts : ∀ e, w.links link = some e → e.email = u) :
    EndsE c 0 admits (PasswdlessService.confirm_link link) w
      (fun w' id => w'.db = w.db ∧ id = u) (fun w' _ => w'.db = w.db) := by
  refine endsE_bind (endsE_lift (ends_ask fun ch w₁ entry _ hans => ?_))
  obtain ⟨rfl, rfl⟩ := World.answer_links_remove hans
  cases hentry : w.links link with
  | none => exact endsE_throw rfl
  | some entry =>
      refine endsE_bind (endsE_lift (ends_ask fun ch₂ w₂ _ _ hans₂ => endsE_ret ?_))
      obtain ⟨rfl, -⟩ := World.answer_tokens_remove hans₂
      exact ⟨rfl, hacts entry hentry⟩

theorem confirm_token_finds {token : Nat} {nonce : String}
    (hacts : ∀ e, w.tokens nonce = some e → e.email = u) :
    EndsE c 0 admits (PasswdlessService.confirm_token token nonce) w
      (fun w' id => w'.db = w.db ∧ id = u) (fun w' _ => w'.db = w.db) := by
  refine endsE_bind (endsE_lift (ends_ask fun ch w₁ entry _ hans => ?_))
  obtain ⟨rfl, rfl⟩ := World.answer_tokens_remove hans
  cases hentry : w.tokens nonce with
  | none => exact endsE_throw rfl
  | some entry =>
      dsimp only
      by_cases ht : entry.token ≠ token
      · rw [if_pos ht]
        exact endsE_throw rfl
      rw [if_neg ht]
      refine endsE_bind (endsE_lift (ends_ask fun ch₂ w₂ _ _ hans₂ => endsE_ret ?_))
      obtain ⟨rfl, -⟩ := World.answer_links_remove hans₂
      exact ⟨rfl, hacts entry hentry⟩

/-- **A request for one user leaves the rows of every other user.** -/
theorem Request.isolated {who : Option Identity}
    (hwho : ∀ w o ch, admits w o ch → LetInAs who w o ch) (hids : wa.KeepsId) (hkeys : KeysSound wa w)
    (req : Request Reg Cred) (hacts : req.acts_for c jwt_svc who w u) :
    Ends c 0 admits (req.handler c jwt_svc wa) w fun w' _ => Isolated u w w' := by
  have hset := hkeys.settled
  have hstart : Sheltered u (fun _ => False) w w := .start hset claimed_none
  have hdone : ∀ {K : Record → Prop} {p : Handler HttpResponse},
      Ends c 0 admits p w (fun w' _ => Sheltered u K w w') →
      Ends c 0 admits p w fun w' _ => Isolated u w w' := fun h =>
    ends_mono h fun _ _ h => isolated_of_look h.same
  have htoken : ∀ {hash : String}, (∀ t ∈ w.rows refresh_tokens, t.token_hash = hash →
      t.user_id = u) → Sheltered u (TokenKey hash) w w := fun h =>
    .start hset (claimed_of_rows (T := refresh_tokens) hset (fun _ hr => hr) fun t ht hhash =>
      congrArg some (h t ht hhash))
  cases req with
  | login req params =>
      exact hdone (login_isolated (q := fun email a => a.email == email) params hset
        fun a ha hq => hacts a ha (beq_iff_eq.mp hq))
  | username_login req params =>
      exact hdone (login_isolated (q := fun username a => a.username == username) params hset
        fun a ha hq => hacts a ha (beq_iff_eq.mp hq))
  | request_password_reset req =>
      exact hdone (ends_bind (ends_mono (request_password_reset_isolated ⟨req.email⟩ hset hacts)
        fun _ _ h => ends_ret h))
  | confirm_password_reset payload =>
      have hreset : Sheltered u (ResetKey (hash_token c payload.token)) w w :=
        .start hset (claimed_of_rows (T := password_resets) hset (fun _ hr => hr) fun p hp hhash =>
          congrArg some (hacts p hp hhash))
      exact hdone (confirm_password_reset_handler_isolated hkeys payload hreset)
  | jwt_logout cmd =>
      exact hdone (ends_bind (ends_mono (jwt_logout_isolated cmd (htoken hacts))
        fun w' r h => by cases r <;> exact ends_ret h))
  | refresh cmd =>
      exact hdone (ends_bind (ends_mono (refresh_isolated cmd (htoken hacts))
        fun w' r h => by cases r <;> exact ends_ret h))
  | jwt cookie =>
      refine hdone (ends_middleware_as hwho (fun session hsession => ?_) hstart)
      exact ends_bind (ends_mono (sheltered_uses (issue_token_pair_with_private jwt_svc .pool _
        "session" (hacts session hsession)) w hstart) fun w' r h => by cases r <;> exact ends_ret h)
  | logout cookie => exact hdone (logout_isolated hkeys cookie hacts)
  | change_password cookie req params =>
      exact hdone (ends_middleware_as hwho (fun session hsession =>
        change_password_isolated hkeys session req params (hacts session hsession)) hstart)
  | delete_session cookie id =>
      exact hdone (ends_middleware_as hwho (fun session hsession =>
        delete_session_isolated hkeys id session (hacts session hsession)) hstart)
  | confirm link params =>
      exact hdone (confirmed_isolated params hset (confirm_link_finds hacts))
  | confirm_token token nonce params =>
      exact hdone (confirmed_isolated params hset (confirm_token_finds hacts))
  | passkey_register_finish cookie label credential =>
      refine hdone (ends_middleware_as hwho (fun session hsession => ?_) hstart)
      rw [← hacts session hsession] at hstart ⊢
      exact sheltered_uses (register_finish_private session label credential) w hstart
  | passkey_remove cookie row_id =>
      refine hdone (ends_middleware_as hwho (fun session hsession => ?_) hstart)
      rw [← hacts session hsession] at hstart ⊢
      exact sheltered_uses (register_remove_private session row_id) w hstart
  | passkey_login_finish username credential params =>
      exact hdone (login_finish_isolated hids hkeys username credential params hacts)
  | _ => exact hacts.elim

/-- **User isolation.** In every state requests lead to, whatever failed on the way, a request for
user `u`, whomever the middleware lets in, leaves the rows of every other user as they are, and adds
none, whether it succeeds or fails. -/
theorem user_isolation (hwa : wa.Documented) (hids : wa.KeepsId) {rows : List Record}
    (hsessions : UniqueRows sessions rows) (hpasskeys : UniqueRows passkey_credentials rows)
    (hfiled : CoherentPasskeys wa rows) {served : List (Request Reg Cred × HttpResponse)}
    (h : Runs c jwt_svc wa Anyhow (World.of rows) served w) {req : Request Reg Cred}
    {who : Option Identity} (hacts : req.acts_for c jwt_svc who w u) {resp : HttpResponse}
    (hrun : Prog.Exec (World.answer c) 0 (LetInAs who) (req.handler c jwt_svc wa) w resp w') :
    Isolated u w w' :=
  req.isolated (fun _ _ _ h => h) hids ((KeysSound.of hsessions hpasskeys hfiled).runs hwa h) hacts
    resp w' hrun

end Routes

/-- Bob's session. -/
def bobs_session : Session := { sample_session with id := 4, sub := 8, username := "bob" }

/-- Alice and Bob, both signed in. -/
def both_signed_in : List Record :=
  [.user (sample_user "old password"), .session sample_session, .session bobs_session]

def alice_changes_password : SampleRequest :=
  .change_password (uuid_text 1) change_request ⟨"10.0.0.1", "browser"⟩

/-- Alice's change of password ends her session and leaves Bob's. -/
theorem user_isolation_for_bob : ∃ w' resp,
    Prog.Exec (World.answer sample_crates) 0 (LetInAs (some as_alice))
      (alice_changes_password.handler sample_crates sample_jwt sample_webauthn)
      (World.of both_signed_in) resp w' ∧ resp.status = 200 ∧ w'.places[1]? = some none ∧
      w'.places[2]? = some (some (.session bobs_session)) := by
  have hrun : ∃ w' resp, Prog.exec? (World.answer sample_crates) 0
      (fun w o ch => decide (LetInAs (some as_alice) w o ch))
      (.identity as_alice :: smooth_choices)
      (alice_changes_password.handler sample_crates sample_jwt sample_webauthn)
      (World.of both_signed_in) = some (resp, w') ∧ resp.status = 200 ∧
      w'.places[1]? = some none := ⟨_, _, rfl, rfl, rfl⟩
  obtain ⟨w', resp, hrun, hok, hgone⟩ := hrun
  have hexec : Prog.Exec (World.answer sample_crates) 0 (LetInAs (some as_alice))
      (alice_changes_password.handler sample_crates sample_jwt sample_webauthn)
      (World.of both_signed_in) resp w' :=
    (Prog.exec_of_exec? hrun).mono fun _ _ _ => of_decide_eq_true
  have hsessions : UniqueRows sessions both_signed_in := by
    intro d d' s s' hd hd' hclash
    rcases d with _ | _ | _ | d <;> rcases d' with _ | _ | _ | d' <;> cases hd <;> cases hd'
    · rfl
    · cases hclash
    · cases hclash
    · rfl
  have hno : ∀ (d : Nat) (p : PasskeyCredential), both_signed_in[d]? ≠
      some (.passkey_credential p) := by
    intro d p hd
    rcases d with _ | _ | _ | d <;> cases hd
  have hisolated : Isolated 7 (World.of both_signed_in) w' := by
    refine user_isolation sample_webauthn_documented ?_ hsessions
      (fun d _ p _ hd => (hno d p hd).elim) (fun d p _ hd => (hno d p hd).elim) (.nil _) ?_ hexec
    · intro k k' result changed hup
      obtain ⟨-, heq⟩ := Option.ite_none_right_eq_some.mp hup
      cases heq
      rfl
    · intro session hsession
      cases hsession
      rfl
  refine ⟨w', resp, hexec, hok, hgone, ?_⟩
  exact (hisolated 2 (.session bobs_session) 8 rfl (by decide)).mpr rfl

end Authnz
