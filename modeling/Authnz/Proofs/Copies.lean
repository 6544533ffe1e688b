/-
The user repository's copies against the table.

The repository caches the rows it loads and knows of its own writes.  `register`,
`change_password` and the rest either go through it, or change nothing a copy shows;
`confirm_password_reset` writes `updated_at` beside it.  So a copy that was there when
a reset was confirmed is out of date (`copy_out_of_date`), and in runs without that
every read shows the row as it is (`cached_reads_agree`).
-/
import Authnz.Proofs.Issuing
import Authnz.Proofs.Indexes

namespace Authnz

open Basis

/-! ### What a step may do to the accounts -/

/-- What requests do to the accounts, but for a reset. -/
inductive Upkeep : Op → Prop
  | apart {o : Op} (h : ∀ q, o.statement = some q → Apart users.prj q)
      (hu : ∀ id dto, o ≠ .update id dto) : Upkeep o
  | insert (mk : Uuid → User) :
      Upkeep (.sql (.insert .pool (fun n => users.inj (mk n)) users.clashes))
  | change (id : Uuid) (hash : String) :
      Upkeep (.sql (.write .pool (users.sel (UserIs id)) (users.set (·.with_hash hash))))
  | update (id : Uuid) (dto : UpdateUser) : Upkeep (.update id dto)

theorem upkeep_of {o : Op} (h : (∀ q, o.statement = some q → Apart users.prj q) ∨ UserUpdate o) :
    Upkeep o := by
  by_cases ho : ∃ id dto, o = .update id dto
  · obtain ⟨id, dto, rfl⟩ := ho
    exact .update id dto
  · have hu : ∀ id dto, o ≠ .update id dto := fun id dto heq => ho ⟨id, dto, heq⟩
    rcases h with h | ⟨id, dto, rfl⟩
    · exact .apart h hu
    · exact absurd rfl (hu id dto)

theorem Plain.upkeep {o : Op} (h : Plain o) : Upkeep o :=
  upkeep_of (.inl fun _ hq => h.apart users_elsewhere hq)

section Walks

variable {c : Crates}

theorem bcrypt_hash_upkeep {password : String} : Upkeep (.bcrypt_hash password) :=
  Plain.upkeep (.quiet trivial fun h => h)

theorem authenticate_upkeep (cookie : String) : Upkeep (.authenticate cookie) :=
  Plain.upkeep (.quiet trivial fun h => h)

theorem change_password_upkeep (cmd : ChangePasswordCmd) :
    (UserService.change_password c cmd).run.Uses Upkeep := by
  unfold UserService.change_password
  refine uses_ite (fun _ => trivial) fun _ => ?_
  refine Prog.uses_bindE (Prog.uses_bindE (uses_attempt (uses_ask (Plain.select _).upkeep))
    fun rows => ?_) fun hash => ?_
  · cases rows <;> trivial
  · refine uses_ite (fun _ => trivial) fun _ => ?_
    exact Prog.uses_bindE (uses_attempt (uses_ask bcrypt_hash_upkeep)) fun _ =>
      Prog.uses_bindE (uses_attempt (uses_update (.change _ _))) fun _ => trivial

/-- The two routes beside the reset that may set a password. -/
theorem Request.sets_password_cases {Reg Cred : Type} {req : Request Reg Cred}
    (h : req.sets_password) (hreq : ∀ payload, req ≠ .confirm_password_reset payload) :
    (∃ r, req = .register r) ∨ ∃ cookie r params, req = .change_password cookie r params := by
  cases req with
  | register r => exact .inl ⟨r, rfl⟩
  | change_password cookie r params => exact .inr ⟨cookie, r, params, rfl⟩
  | confirm_password_reset payload => exact absurd rfl (hreq payload)
  | _ => exact h.elim

theorem Request.upkeep {Reg Cred : Type} (jwt_svc : JwtService) (wa : Webauthn Reg Cred)
    (req : Request Reg Cred) (hreq : ∀ payload, req ≠ .confirm_password_reset payload) :
    (req.handler c jwt_svc wa).Uses Upkeep := by
  by_cases hsets : ¬ req.sets_password
  · exact uses_mono (req.uses c jwt_svc wa) fun _ ho => upkeep_of (req.accounts hsets ho)
  rcases sets_password_cases (not_not.mp hsets) hreq with ⟨req, rfl⟩ | ⟨cookie, req, params, rfl⟩
  · refine uses_mono ((Request.register req).uses c jwt_svc wa) fun o ho => ?_
    rcases ho with ho | ⟨mk, rfl⟩
    · exact ho.upkeep
    · exact .insert mk
  · refine Prog.uses_bind (uses_ask (authenticate_upkeep cookie)) fun session => ?_
    change Option Identity at session
    cases session with
    | none => trivial
    | some id =>
        refine Prog.uses_bind (change_password_upkeep _) fun r => ?_
        cases r with
        | error e => trivial
        | ok =>
            have hafter : Orderly c 0 Plain (after_change c id.sub params) :=
              after_change_orderly id.sub params
            exact uses_mono hafter.uses fun _ ho => ho.upkeep

/-- The operation neither reads nor writes through the user repository. -/
def Beside : Op → Prop
  | .sql _ | .list_sessions _ | .now | .bcrypt_hash _ => True
  | _ => False

theorem after_reset_beside (user_id : Uuid) : (after_reset user_id).Uses Beside := by
  refine Prog.uses_bind ?_ fun _ => Prog.uses_bind ?_ fun _ => trivial
  · refine Prog.uses_bindE (uses_attempt (uses_ask trivial)) fun l => uses_lift ?_
    induction l with
    | nil => trivial
    | cons s rest ih =>
        refine Prog.uses_bind (Prog.uses_bindE (uses_attempt (uses_delete trivial)) fun rows => ?_)
          fun _ => ih
        cases rows <;> trivial
  · exact Prog.uses_bindE (uses_attempt (uses_update trivial)) fun _ => trivial

theorem confirm_password_reset_beside (cmd : ConfirmPasswordResetCmd) :
    (UserService.confirm_password_reset c cmd).run.Uses Beside := by
  refine uses_ite (fun _ => trivial) fun _ => ?_
  refine Prog.uses_bindE (uses_lift (uses_ask trivial)) fun now =>
    Prog.uses_bindE (uses_attempt (uses_ask trivial)) fun _ => uses_in_tx ?_ trivial
  refine Prog.uses_bindE (uses_attempt (uses_update trivial)) fun rows => ?_
  cases rows with
  | nil => trivial
  | cons reset rest =>
      exact Prog.uses_bindE (uses_attempt (uses_ask trivial)) fun _ =>
        Prog.uses_bindE (uses_attempt (uses_update trivial)) fun _ =>
        Prog.uses_bindE (uses_attempt (uses_ask trivial)) fun _ => trivial

/-- A reset goes past the repository. -/
theorem handlers.confirm_password_reset_beside (payload : PasswordResetConfirmRequest) :
    (handlers.confirm_password_reset c payload).Uses Beside := by
  refine Prog.uses_bind (Authnz.confirm_password_reset_beside _) fun r => ?_
  cases r with
  | error e => trivial
  | ok user_id => exact after_reset_beside user_id

end Walks

/-! ### Copies that show their rows -/

/-- The accounts have keys of their own, and every copy shows its row. -/
structure Mirrored (w : World) : Prop where
  index : Indexed users w
  copies : ∀ {id : Uuid} {x : { u : UserResponse // u.id = id }}, w.user_cache id = some x →
    ∃ d u, w.row users d = some u ∧ x.1 = UserResponse.of u

/-- The answer a lookup should get: the row as it is now, or that there is none. -/
def ShowsRow (w : World) (id : Uuid) : Except ApiError UserResponse → Prop
  | .ok x => ∃ u ∈ w.rows users, u.id = id ∧ x = UserResponse.of u
  | .error _ => ∀ u ∈ w.rows users, u.id ≠ id

section Mirrored

variable {c : Crates} {w w' : World} {ch : Choice} {admits : World → Op → Choice → Prop}

theorem load_row {id : Uuid} {x : { u : UserResponse // u.id = id }} (h : w.load id = some x) :
    ∃ d u, w.row users d = some u ∧ x.1 = UserResponse.of u := by
  unfold World.load at h
  split at h
  · rename_i u hu
    obtain rfl := Option.some.inj h
    obtain ⟨d, hd⟩ := mem_rows_iff.mp (List.mem_of_find?_eq_some hu)
    exact ⟨d, u, hd, rfl⟩
  · cases h

theorem load_none {id : Uuid} (h : w.load id = none) : ∀ u ∈ w.rows users, u.id ≠ id := by
  unfold World.load at h
  split at h
  · cases h
  · rename_i hu
    intro u hmem hid
    exact List.find?_eq_none.mp hu u hmem (beq_iff_eq.mpr hid)

/-- What a lookup does to the copies, and what it answers. -/
theorem Mirrored.retrieve {id : Uuid} {r : Op.Reply (.retrieve id)} (h : Mirrored w)
    (hans : World.answer c 0 (.retrieve id) ch w = some (w', r)) :
    Mirrored w' ∧ (ch ≠ .fail → ShowsRow w id r) := by
  have hshows : ∀ {x : { u : UserResponse // u.id = id }},
      (∃ d u, w.row users d = some u ∧ x.1 = UserResponse.of u) → ShowsRow w id (.ok x.1) := by
    intro x hpost
    obtain ⟨d, u, hu, hx⟩ := hpost
    refine ⟨u, mem_rows_iff.mpr ⟨d, hu⟩, ?_, hx⟩
    have hid := x.2
    rw [hx] at hid
    exact hid
  change World.answerRetrieve id ch w = some (w', r) at hans
  unfold World.answerRetrieve at hans
  split at hans
  · obtain ⟨x, hx, heq⟩ := Option.map_eq_some_iff.mp hans
    cases heq
    exact ⟨h, fun _ => hshows (h.copies hx)⟩
  · split at hans
    · rename_i x hx
      cases hans
      refine ⟨⟨h.index.same h.index.steady fun _ => rfl, fun {id' y} hy => ?_⟩,
        fun _ => hshows (load_row hx)⟩
      by_cases hid : id' = id
      · subst hid
        change Function.update w.user_cache id' (some x) id' = some y at hy
        rw [Function.update_self] at hy
        exact Option.some.inj hy ▸ load_row hx
      · change Function.update w.user_cache id (some x) id' = some y at hy
        rw [Function.update_of_ne hid] at hy
        exact h.copies hy
    · rename_i hx
      cases hans
      exact ⟨h, fun _ => load_none hx⟩
  · cases hans
    exact ⟨h, fun hch => absurd rfl hch⟩
  · cases hans

/-- Rows that stay, or change in nothing a copy shows. -/
theorem Mirrored.kept (h : Mirrored w) (hindex : Indexed users w')
    (hrows : ∀ {d u}, w.row users d = some u →
      ∃ u', w'.row users d = some u' ∧ UserResponse.of u' = UserResponse.of u)
    (hcache : w'.user_cache = w.user_cache) : Mirrored w' := by
  refine ⟨hindex, fun {id x} hx => ?_⟩
  rw [hcache] at hx
  obtain ⟨d, u, hu, hxu⟩ := h.copies hx
  obtain ⟨u', hu', hof⟩ := hrows hu
  exact ⟨d, u', hu', hxu.trans hof.symm⟩

theorem users_insert_keeps (mk : Uuid → User) {q : SqlOp Record}
    (hq : (Op.sql (.insert .pool (fun n => users.inj (mk n)) users.clashes)).statement = some q) :
    KeepsKeys users q := by
  cases hq
  exact .insert mk

theorem users_change_keeps (id : Uuid) (hash : String) {q : SqlOp Record}
    (hq : (Op.sql (.write .pool (users.sel (UserIs id)) (users.set (·.with_hash hash)))).statement =
      some q) : KeepsKeys users q := by
  cases hq
  exact .set (UserIs id) (fun _ _ => rfl) fun _ _ => rfl

/-- What an update through the repository that is not refused makes of the accounts. -/
theorem update_renames {id : Uuid} {dto : UpdateUser} {v : User}
    {r' : (SqlOp.write .pool (users.sel fun v => v.id == id)
      (users.set fun v => v.update dto)).Reply} (h : Indexed users w)
    (hfind : (w.rows users).find? (fun v => v.id == id) = some v)
    (hfree : ∀ u ∈ w.rows users, u.id ≠ id → users.clash (v.update dto) u = false)
    (hdb : SqlOp.answer 0 (.write .pool (users.sel fun v => v.id == id)
      (users.set fun v => v.update dto)) (.done 0) w.db = some (w'.db, r')) :
    Indexed users w' ∧ (∃ d, w.row users d = some v) ∧ v.id = id ∧
      ∀ d, w'.row users d = (w.row users d).map fun u => if u.id == id then u.update dto else u := by
  rcases SqlOp.alone_write hdb with ⟨hdesk, -⟩ | ⟨hf, -⟩
  · have hset : w'.Settled 0 := by
      rw [World.Settled, hdesk]
      exact Desk.settled_pool _
    have hrows : ∀ d, w'.row users d = (w.row users d).map fun u =>
        if u.id == id then u.update dto else u :=
      row_of_pooled h.steady (prj_rewrite_set _ _) rfl hdesk
    obtain ⟨d₀, hd₀⟩ := mem_rows_iff.mp (List.mem_of_find?_eq_some hfind)
    have hvid : v.id = id := by simpa using List.find?_some hfind
    exact ⟨h.renamed (hset.steady users) hd₀ hvid
      (fun hu hne => hfree _ (mem_rows_iff.mpr ⟨_, hu⟩) hne) hrows, ⟨d₀, hd₀⟩, hvid, hrows⟩
  · cases hf

/-- One step keeps the accounts' keys. -/
theorem Indexed.upkeep {o : Op} {r : o.Reply} (h : Indexed users w) (ho : Upkeep o)
    (hans : World.answer c 0 o ch w = some (w', r)) : Indexed users w' := by
  cases ho with
  | apart happart hu =>
      obtain ⟨hst, hrows⟩ := Apart.frame happart hans h.steady
      exact h.same hst hrows
  | insert mk => exact h.step users_clash_comm (fun _ => users_insert_keeps mk) hans
  | change id hash => exact h.step users_clash_comm (fun _ => users_change_keeps id hash) hans
  | update id dto =>
      rcases answer_update_copy hans with rfl | ⟨v, r', hfind, hfree, hdb, -⟩
      · exact h
      · exact (update_renames h hfind hfree hdb).1

/-- An update through the repository refreshes the copy it makes out of date. -/
theorem Mirrored.update {id : Uuid} {dto : UpdateUser} {r : Op.Reply (.update id dto)}
    (h : Mirrored w) (hans : World.answer c 0 (.update id dto) ch w = some (w', r)) :
    Mirrored w' := by
  rcases answer_update_copy hans with rfl | ⟨v, r', hfind, hfree, hdb, hw⟩
  · exact h
  obtain ⟨hindex, ⟨d₀, hd₀⟩, hvid, hrows⟩ := update_renames h.index hfind hfree hdb
  refine ⟨hindex, fun {id' x} hx => ?_⟩
  rw [hw] at hx
  by_cases hid' : id' = (v.update dto).id
  · subst hid'
    change Function.update w.user_cache _ _ (v.update dto).id = some x at hx
    rw [Function.update_self] at hx
    refine ⟨d₀, v.update dto, ?_, Option.some.inj hx ▸ rfl⟩
    rw [hrows, hd₀]
    exact congrArg some (if_pos (beq_iff_eq.mpr hvid))
  · change Function.update w.user_cache _ _ id' = some x at hx
    rw [Function.update_of_ne hid'] at hx
    obtain ⟨d, y, hy, hxy⟩ := h.copies hx
    have hyid : y.id = id' := by
      have hx' := x.2
      rwa [hxy] at hx'
    have hne : y.id ≠ id := fun heq => hid' (hyid.symm.trans (heq.trans hvid.symm))
    refine ⟨d, y, ?_, hxy⟩
    rw [hrows, hy]
    exact congrArg some (if_neg (by simpa using hne))

/-- One step. -/
theorem Mirrored.step {o : Op} {r : o.Reply} (h : Mirrored w) (ho : Upkeep o)
    (hans : World.answer c 0 o ch w = some (w', r)) : Mirrored w' := by
  have hindex := h.index.upkeep ho hans
  cases ho with
  | apart happart hu =>
      by_cases hr : ∃ id, o = .retrieve id
      · obtain ⟨id, rfl⟩ := hr
        exact (h.retrieve hans).1
      · obtain ⟨hst, hrows⟩ := Apart.frame happart hans h.index.steady
        refine h.kept hindex (fun {d u} hu => ⟨u, (hrows d).trans hu, rfl⟩) ?_
        exact user_cache_of_answer (fun id hid => hr ⟨id, hid⟩) hu hans
  | insert mk =>
      obtain ⟨out, -, hdb, hw⟩ := World.answer_sql hans
      refine h.kept hindex (fun {d u} hu => ?_) (by rw [hw])
      rcases SqlOp.alone_insert hdb with ⟨key, -, -, hdesk, -⟩ | ⟨-, -, -, ht, -⟩ | ⟨-, ht, -⟩
      · have hd : d ≠ w.db.length := by
          rintro rfl
          rw [World.row, List.getElem?_eq_none (Nat.le_refl _)] at hu
          cases hu
        refine ⟨u, ?_, rfl⟩
        rw [row_of_added h.index.steady hdesk, if_neg hd, hu]
      · exact ⟨u, by rw [World.row, ht]; exact hu, rfl⟩
      · exact ⟨u, by rw [World.row, ht]; exact hu, rfl⟩
  | change id hash =>
      obtain ⟨out, -, hdb, hw⟩ := World.answer_sql hans
      refine h.kept hindex (fun {d u} hu => ?_) (by rw [hw])
      rcases SqlOp.alone_write hdb with ⟨hdesk, -⟩ | ⟨-, ht, -⟩
      · refine ⟨if UserIs id u then u.with_hash hash else u, ?_, ?_⟩
        · rw [row_of_pooled h.index.steady (prj_rewrite_set _ _) rfl hdesk, hu]
          rfl
        · split
          · rfl
          · rfl
      · exact ⟨u, by rw [World.row, ht]; exact hu, rfl⟩
  | update id dto => exact h.update hans

/-- A deletion takes the account away, and with it whatever refers to it. -/
theorem rewrite_cascades (id : Uuid) (x : Option Record) :
    (Desk.rewrite (Cascades id) Relation.del x).bind users.prj =
      (x.bind users.prj).filter fun u => u.id != id := by
  cases x with
  | none => rfl
  | some r =>
      by_cases hr : Cascades id r = true
      · rw [Desk.rewrite_hit hr]
        cases r with
        | user u =>
            have hid : u.id = id := beq_iff_eq.mp hr
            simp [Relation.del, users, Option.filter, hid]
        | _ => rfl
      · rw [Desk.rewrite_miss (by simpa using hr)]
        cases r with
        | user u =>
            have hid : u.id ≠ id := fun heq => hr (beq_iff_eq.mpr heq)
            simp [users, Option.filter, hid]
        | _ => rfl

theorem delete_user_settles (hset : w.Settled 0) (id : Uuid) :
    Ends c 0 admits (delete_user id) w fun w' _ => w'.Settled 0 := by
  refine ends_bind (ends_ask fun ch w' r _ hans => ends_ret ?_)
  obtain ⟨out, -, hdb, -⟩ := World.answer_sql hans
  rcases SqlOp.alone_write hdb with ⟨hdesk, -⟩ | ⟨-, ht, -⟩
  · rw [World.Settled, hdesk]
    exact Desk.settled_pool _
  · rwa [World.Settled, ht]

/-- A deletion through the repository: the row goes, and its copy with it. -/
theorem Mirrored.delete (h : Mirrored w) (id : Uuid) :
    Ends c 0 admits (delete_user id) w fun w' _ => Mirrored (w'.expire (.user id)) := by
  refine ends_bind (ends_ask fun ch w' r _ hans => ends_ret ?_)
  obtain ⟨out, -, hdb, hw⟩ := World.answer_sql hans
  have hcache : ∀ {id' : Uuid} {x : { u : UserResponse // u.id = id' }},
      (w'.expire (.user id)).user_cache id' = some x → id' ≠ id ∧ w.user_cache id' = some x := by
    intro id' x hx
    rw [hw] at hx
    change Function.update w.user_cache id none id' = some x at hx
    by_cases hid : id' = id
    · subst hid
      rw [Function.update_self] at hx
      cases hx
    · rw [Function.update_of_ne hid] at hx
      exact ⟨hid, hx⟩
  rcases SqlOp.alone_write hdb with ⟨hdesk, -⟩ | ⟨-, ht, -⟩
  · have hset : (w'.expire (.user id)).Settled 0 := by
      rw [World.Settled, World.expire_db, hdesk]
      exact Desk.settled_pool _
    have hrows : ∀ d, (w'.expire (.user id)).row users d =
        (w.row users d).filter fun u => u.id != id := by
      intro d
      rw [World.row, World.expire_db, ← World.row]
      exact row_of_pooled h.index.steady (rewrite_cascades id) rfl hdesk d
    refine ⟨h.index.filtered (hset.steady users) hrows, fun {id' x} hx => ?_⟩
    obtain ⟨hne, hx⟩ := hcache hx
    obtain ⟨d, u, hu, hxu⟩ := h.copies hx
    have huid : u.id = id' := by
      have hx' := x.2
      rwa [hxu] at hx'
    refine ⟨d, u, ?_, hxu⟩
    rw [hrows, hu, Option.filter_some, if_pos (by simpa [huid] using hne)]
  · have hsame : (w'.expire (.user id)).db = w.db := (World.expire_db _ _).trans ht
    refine ⟨h.index.same (h.index.steady.of_db hsame) (row_of_db hsame), fun {id' x} hx => ?_⟩
    obtain ⟨-, hx⟩ := hcache hx
    obtain ⟨d, u, hu, hxu⟩ := h.copies hx
    exact ⟨d, u, (row_of_db hsame d).trans hu, hxu⟩

theorem Mirrored.expire (h : Mirrored w) (e : Expiry) : Mirrored (w.expire e) := by
  have hdb := World.expire_db e w
  refine ⟨h.index.same (h.index.steady.of_db hdb) (row_of_db hdb), fun {id x} hx => ?_⟩
  have hold : w.user_cache id = some x := by
    cases e with
    | user id' =>
        change Function.update w.user_cache id' none id = some x at hx
        by_cases hid : id = id'
        · subst hid
          rw [Function.update_self] at hx
          cases hx
        · rwa [Function.update_of_ne hid] at hx
    | _ => exact hx
  obtain ⟨d, u, hu, hxu⟩ := h.copies hold
  exact ⟨d, u, (row_of_db hdb d).trans hu, hxu⟩

/-- What stands beside the repository leaves its copies as they are. -/
theorem Beside.cache {o : Op} {r : o.Reply} (ho : Beside o)
    (hans : World.answer c 0 o ch w = some (w', r)) : w'.user_cache = w.user_cache := by
  refine user_cache_of_answer (fun id heq => ?_) (fun id dto heq => ?_) hans
  · subst heq
    exact ho
  · subst heq
    exact ho

end Mirrored

/-! ### Runs -/

/-- The clock shows this to whoever confirms a reset. -/
def Punctual {Reg Cred : Type} (req : Request Reg Cred) (t : Time) (_ : World) (_ : Op)
    (ch : Choice) : Prop :=
  match req with
  | .confirm_password_reset _ => ∀ t', ch = .time t' → t' = t
  | _ => True

section Runs

variable {Reg Cred : Type} (c : Crates) (jwt_svc : JwtService) (wa : Webauthn Reg Cred)

/-- The states that requests, lookups and deletions of users lead to, one after the other; a request
is sent under `C`. -/
inductive Managed (C : World → Time → Request Reg Cred → Prop) (rows : List Record) : World → Prop
  | start : Managed C rows (World.of rows)
  | request {w w' : World} {req : Request Reg Cred} {t : Time} {resp : HttpResponse}
      (h : Managed C rows w) (hC : C w t req)
      (hrun : Prog.Exec (World.answer c) 0 (Punctual req t) (req.handler c jwt_svc wa) w resp w') :
      Managed C rows w'
  | get_user_by_id {w w' : World} {id : Uuid} {r : Except AuthError UserResponse}
      (h : Managed C rows w)
      (hrun : Prog.Exec (World.answer c) 0 Anyhow (UserService.get_user_by_id id).run w r w') :
      Managed C rows w'
  | delete_user {w w' : World} {id : Uuid} {r : Except ApiError Unit} (h : Managed C rows w)
      (hrun : Prog.Exec (World.answer c) 0 Anyhow (delete_user id) w r w') :
      Managed C rows (w'.expire (.user id))
  | expire {w : World} (h : Managed C rows w) (e : Expiry) : Managed C rows (w.expire e)

/-- When a reset is confirmed, the repository has no copy of the account, unless the copy bears that
very time. -/
def Uncopied (w : World) (t : Time) : Request Reg Cred → Prop
  | .confirm_password_reset payload => ¬ c.zxcvbn_score payload.new_password < 3 →
      ∀ q ∈ w.rows password_resets, Redeemable (hash_token c payload.token) t q = true →
        ∀ x, w.user_cache q.user_id = some x → x.1.updated_at = t
  | _ => True

/-- If the operation is a lookup that does not fail, its answer is the row. -/
def Truthful (w : World) (o : Op) (ch : Choice) : Prop :=
  ∀ id, o = .retrieve id → ch ≠ .fail → ∀ w' r,
    World.answer c 0 (.retrieve id) ch w = some (w', r) → ShowsRow w id r

/-- `get_user_by_id` returns the row or that there is none, and so do the lookups of requests. -/
structure ReadsAgree (w : World) : Prop where
  get_user_by_id : ∀ id r w', Prog.Exec (World.answer c) 0 NoFail
    (UserService.get_user_by_id id).run w r w' →
    match r with
    | .ok x => ∃ u ∈ w.rows users, u.id = id ∧ x = UserResponse.of u
    | .error e => e = .UserNotFound ∧ ∀ u ∈ w.rows users, u.id ≠ id
  lookups : ∀ (req : Request Reg Cred) resp w',
    Prog.Exec (World.answer c) 0 Anyhow (req.handler c jwt_svc wa) w resp w' →
    Prog.Exec (World.answer c) 0 (Truthful c) (req.handler c jwt_svc wa) w resp w'

end Runs

section Reads

variable {Reg Cred : Type} {c : Crates} {jwt_svc : JwtService} {wa : Webauthn Reg Cred}
  {rows : List Record} {w w' : World}

theorem mirrored_keeps {α : Type} {p : Handler α} {admits : World → Op → Choice → Prop}
    (hp : p.Uses Upkeep) : Keeps c 0 admits Mirrored p :=
  keeps_of_uses hp fun _ _ _ _ _ ho _ hans h => h.step ho hans

theorem Orderly.mirrored {α : Type} {p : Handler α} {admits : World → Op → Choice → Prop}
    (hp : Orderly c 0 Plain p) : Keeps c 0 admits Mirrored p :=
  mirrored_keeps (uses_mono hp.uses fun _ ho => ho.upkeep)

/-- A reset keeps the accounts' keys. -/
theorem Indexed.restamped (h : Indexed users w) (hst : w'.Steady 0 users) {id : Uuid}
    {hash : String} {now : Time} (hrows : ∀ d, w'.row users d = (w.row users d).map fun u =>
      if UserIs id u then u.with_hash_at hash now else u) : Indexed users w' := by
  refine h.rewritten hst (fun a b => ?_) hrows
  have hkeys : ∀ u : User, (if UserIs id u then u.with_hash_at hash now else u).id = u.id ∧
      (if UserIs id u then u.with_hash_at hash now else u).username = u.username ∧
      (if UserIs id u then u.with_hash_at hash now else u).email = u.email := by
    intro u
    split
    · exact ⟨rfl, rfl, rfl⟩
    · exact ⟨rfl, rfl, rfl⟩
  simp only [users, hkeys]

/-- An account written beside its copy, which already bears the time. -/
theorem Mirrored.restamped (h : Mirrored w) (hst : w'.Steady 0 users) {id : Uuid} {hash : String}
    {now : Time} (hrows : ∀ d, w'.row users d = (w.row users d).map fun u =>
      if UserIs id u then u.with_hash_at hash now else u) (hcache : w'.user_cache = w.user_cache)
    (hx : ∀ x, w.user_cache id = some x → x.1.updated_at = now) : Mirrored w' := by
  refine ⟨h.index.restamped hst hrows, fun {id' x} hx' => ?_⟩
  rw [hcache] at hx'
  obtain ⟨d, u, hu, hxu⟩ := h.copies hx'
  have hrow : w'.row users d = some (if UserIs id u then u.with_hash_at hash now else u) := by
    rw [hrows, hu]
    rfl
  by_cases huid : UserIs id u = true
  · rw [if_pos huid] at hrow
    refine ⟨d, _, hrow, ?_⟩
    have huid' : u.id = id' := by
      have hid := x.2
      rwa [hxu] at hid
    obtain rfl : id' = id := huid'.symm.trans (beq_iff_eq.mp huid)
    have hstamp := hx x hx'
    rw [hxu] at hstamp ⊢
    rw [← hstamp]
    rfl
  · rw [if_neg huid] at hrow
    exact ⟨d, u, hrow, hxu⟩

/-- What a reset makes of the accounts and of their copies. -/
theorem Mirrored.reset (hset : w.Settled 0) (h : Mirrored w) {t : Time}
    (payload : PasswordResetConfirmRequest)
    (hC : Uncopied c w t (Request.confirm_password_reset payload : Request Reg Cred)) :
    Ends c 0 (Punctual (Request.confirm_password_reset payload : Request Reg Cred) t)
      (handlers.confirm_password_reset c payload) w fun w' _ => Mirrored w' := by
  have hcache : ∀ {r : Except AuthError Uuid} {w' : World}, Prog.Exec (World.answer c) 0
      (Punctual (Request.confirm_password_reset payload : Request Reg Cred) t)
      (UserService.confirm_password_reset c ⟨payload.token, payload.new_password⟩).run w r w' →
      w'.user_cache = w.user_cache := by
    intro r w' hexec
    exact hexec.invariant (I := fun w' => w'.user_cache = w.user_cache)
      (confirm_password_reset_beside _)
      (fun _ _ _ _ _ ho _ hans heq => (ho.cache hans).trans heq) rfl
  refine ends_bind fun r w₁ hexec => ?_
  have hcache₁ := hcache hexec
  have hends := confirm_password_reset_redeems hset _ r w₁ hexec
  cases r with
  | error e =>
      obtain ⟨hplaces, hset₁⟩ := hends
      have hrow : ∀ d, w₁.row users d = w.row users d := by
        intro d
        rw [row_of_places, row_of_places, hplaces]
      exact ends_ret (h.kept (h.index.same (hset₁.steady users) hrow)
        (fun {d u} hu => ⟨u, (hrow d).trans hu, rfl⟩) hcache₁)
  | ok id =>
      obtain ⟨⟨salt, now, hnow, ⟨q, hq, hred, rfl⟩, hplaces⟩, hs, hset₁⟩ := hends
      obtain rfl : now = t := hnow now rfl
      have hrows := row_of_reset hplaces
      have h₁ : Mirrored w₁ := by
        refine h.restamped (hset₁.steady users) hrows hcache₁ fun x hx => ?_
        exact hC hs q ((mem_sees_rows hset).mp hq) hred x hx
      exact (after_reset_orderly q.user_id).mirrored w₁ h₁

theorem Managed.mirrored (hunique : UniqueAccounts rows)
    (h : Managed c jwt_svc wa (Uncopied c) rows w) : w.Settled 0 ∧ Mirrored w := by
  induction h with
  | start =>
      exact ⟨settled_of 0 rows, .of hunique, fun hx => nomatch hx⟩
  | @request w w' req t resp _ hC hrun ih =>
      obtain ⟨hset, hw⟩ := ih
      have horderly : Orderly c 0 _ (req.handler c jwt_svc wa) := req.orderly jwt_svc wa
      refine ⟨horderly.settles hset _ _ hrun, ?_⟩
      by_cases hreq : ∃ payload, req = .confirm_password_reset payload
      · obtain ⟨payload, rfl⟩ := hreq
        exact hw.reset hset payload hC resp w' hrun
      · exact mirrored_keeps (req.upkeep jwt_svc wa fun payload heq => hreq ⟨payload, heq⟩) w hw _ _
          hrun
  | @get_user_by_id w w' id r _ hrun ih =>
      obtain ⟨hset, hw⟩ := ih
      have horderly : Orderly c 0 Plain (UserService.get_user_by_id id).run :=
        get_user_by_id_orderly id
      exact ⟨horderly.settles hset _ _ hrun, horderly.mirrored w hw _ _ hrun⟩
  | @delete_user w w' id r _ hrun ih =>
      obtain ⟨hset, hw⟩ := ih
      have hset' : w'.Settled 0 := delete_user_settles hset id _ _ hrun
      exact ⟨hset'.of_db (World.expire_db _ _), hw.delete id _ _ hrun⟩
  | expire _ e ih => exact ⟨ih.1.of_db (World.expire_db e _), ih.2.expire e⟩

theorem Mirrored.truthful (h : Mirrored w) (o : Op) (ch : Choice) : Truthful c w o ch :=
  fun _ _ hch _ _ hans => (h.retrieve hans).2 hch

/-- **Every read shows the row**, in every run where no reset is confirmed for an account that the
repository holds a copy of. -/
theorem cached_reads_agree (hunique : UniqueAccounts rows)
    (h : Managed c jwt_svc wa (Uncopied c) rows w) : ReadsAgree c jwt_svc wa w := by
  obtain ⟨hset, hw⟩ := h.mirrored hunique
  refine ⟨fun id r w' hrun => ?_, fun req resp w' hrun => ?_⟩
  · have hends : EndsE c 0 NoFail (UserService.get_user_by_id id) w
        (fun _ x => ∃ u ∈ w.rows users, u.id = id ∧ x = UserResponse.of u)
        (fun _ e => e = .UserNotFound ∧ ∀ u ∈ w.rows users, u.id ≠ id) := by
      refine endsE_attempt (ends_ask fun ch w₁ r hch hans => ?_)
      have hshows := (hw.retrieve hans).2 hch
      change Except ApiError UserResponse at r
      cases r with
      | ok x => exact hshows
      | error e => exact ⟨rfl, hshows⟩
    have hr := hends r w' hrun
    cases r with
    | ok x => exact hr
    | error e => exact hr
  · by_cases hreq : ∃ payload, req = .confirm_password_reset payload
    · obtain ⟨payload, rfl⟩ := hreq
      refine hrun.guarded (P := Beside) (I := fun _ => True)
        (handlers.confirm_password_reset_beside payload) (fun _ _ _ _ _ _ _ _ _ => trivial)
        (fun w₁ o ch ho _ id heq => ?_) trivial
      subst heq
      exact ho.elim
    · exact hrun.guarded (req.upkeep jwt_svc wa fun payload heq => hreq ⟨payload, heq⟩)
        (fun _ _ _ _ _ ho _ hans h => h.step ho hans) (fun _ o ch _ h => h.truthful o ch) hw

end Reads

/-! ### Alice's copy -/

/-- Alice's account and a reset she has asked for. -/
def alice_forgetful : List Record :=
  [.user (sample_user "correct horse"), .password_reset (sample_reset (token_of 1))]

theorem alice_forgetful_unique : UniqueAccounts alice_forgetful := by
  intro d d' u u' hd hd' _
  rcases d with _ | _ | d
  · rcases d' with _ | _ | d'
    · rfl
    · cases hd'
    · cases hd'
  · cases hd
  · cases hd

/-- The clock shows a minute past midnight. -/
def minute_past (_ : World) (_ : Op) : Choice → Bool
  | .time t => t == 60
  | _ => true

theorem punctual_minute_past {Reg Cred : Type} (payload : PasswordResetConfirmRequest) {w : World}
    {o : Op} {ch : Choice} (h : minute_past w o ch = true) :
    Punctual (Request.confirm_password_reset payload : Request Reg Cred) 60 w o ch := by
  intro t' ht
  subst ht
  exact beq_iff_eq.mp h

/-- Alice redeems her reset, and is looked up afterwards. -/
theorem cached_reads_agree_for_alice : ∃ w, Managed sample_crates sample_jwt sample_webauthn
    (Uncopied sample_crates) alice_forgetful w ∧ (w.user_cache 7).isSome = true ∧
      ReadsAgree sample_crates sample_jwt sample_webauthn w := by
  have hruns : ∃ w₁ r₁, Prog.exec? (World.answer sample_crates) 0 minute_past
      [.time 60, .go, .go, .number 0, .go, .go, .go, .sessions [], .go]
      (handlers.confirm_password_reset sample_crates
        ⟨token_of 1, "violet ladder engine cactus"⟩) (World.of alice_forgetful) = some (r₁, w₁) ∧
      ∃ w₂ r₂, Prog.exec? (World.answer sample_crates) 0 (fun _ _ _ => true) [.go]
        (UserService.get_user_by_id 7).run w₁ = some (r₂, w₂) ∧ (w₂.user_cache 7).isSome = true :=
    ⟨_, _, rfl, _, _, rfl, rfl⟩
  obtain ⟨w₁, r₁, h₁, w₂, r₂, h₂, hcopy⟩ := hruns
  let reset : Request Passkey (List UInt8) :=
    .confirm_password_reset ⟨token_of 1, "violet ladder engine cactus"⟩
  have hexec₁ : Prog.Exec (World.answer sample_crates) 0 (Punctual reset 60)
      (reset.handler sample_crates sample_jwt sample_webauthn) (World.of alice_forgetful) r₁ w₁ :=
    (Prog.exec_of_exec? h₁).mono fun _ _ _ h => punctual_minute_past _ h
  have hexec₂ := (Prog.exec_of_exec? h₂).mono fun _ _ _ _ => (trivial : Anyhow _ _ _)
  have hstart : Managed sample_crates sample_jwt sample_webauthn (Uncopied sample_crates)
      alice_forgetful (World.of alice_forgetful) := .start
  have huncopied : Uncopied sample_crates (World.of alice_forgetful) 60 reset :=
    fun _ _ _ _ _ hx => nomatch hx
  have hrun := (hstart.request huncopied hexec₁).get_user_by_id hexec₂
  exact ⟨w₂, hrun, hcopy, cached_reads_agree alice_forgetful_unique hrun⟩

/-- Alice is looked up, redeems a reset and is looked up again: the second answer is that before the
reset. -/
theorem copy_out_of_date : ∃ w, Managed sample_crates sample_jwt sample_webauthn
    (fun _ _ _ => True) alice_forgetful w ∧ UniqueAccounts alice_forgetful ∧
      ¬ ReadsAgree sample_crates sample_jwt sample_webauthn w := by
  have hruns : ∃ w₁ r₁, Prog.exec? (World.answer sample_crates) 0 (fun _ _ _ => true) [.go]
      (UserService.get_user_by_id 7).run (World.of alice_forgetful) = some (r₁, w₁) ∧
      ∃ w₂ r₂, Prog.exec? (World.answer sample_crates) 0 minute_past
        [.time 60, .go, .go, .number 0, .go, .go, .go, .sessions [], .go]
        (handlers.confirm_password_reset sample_crates
          ⟨token_of 1, "violet ladder engine cactus"⟩) w₁ = some (r₂, w₂) ∧
      ∃ w₃, Prog.exec? (World.answer sample_crates) 0 (fun _ _ ch => ch != .fail) [.cached]
        (UserService.get_user_by_id 7).run w₂ =
          some (.ok (UserResponse.of (sample_user "correct horse")), w₃) ∧
      w₂.rows users = [(sample_user "correct horse").with_hash_at
        (sample_crates.bcrypt_hash "violet ladder engine cactus" 0) 60] :=
    ⟨_, _, rfl, _, _, rfl, _, rfl, rfl⟩
  obtain ⟨w₁, r₁, h₁, w₂, r₂, h₂, w₃, h₃, hrows⟩ := hruns
  have hexec₁ := (Prog.exec_of_exec? h₁).mono fun _ _ _ _ => (trivial : Anyhow _ _ _)
  let reset : Request Passkey (List UInt8) :=
    .confirm_password_reset ⟨token_of 1, "violet ladder engine cactus"⟩
  have hexec₂ : Prog.Exec (World.answer sample_crates) 0 (Punctual reset 60)
      (reset.handler sample_crates sample_jwt sample_webauthn) w₁ r₂ w₂ :=
    (Prog.exec_of_exec? h₂).mono fun _ _ _ h => punctual_minute_past _ h
  have hexec₃ : Prog.Exec (World.answer sample_crates) 0 NoFail _ w₂ _ w₃ :=
    (Prog.exec_of_exec? h₃).mono fun _ _ ch h => by simpa [NoFail] using h
  have hstart : Managed sample_crates sample_jwt sample_webauthn (fun _ _ _ => True)
      alice_forgetful (World.of alice_forgetful) := .start
  have hrun := (hstart.get_user_by_id hexec₁).request trivial hexec₂
  refine ⟨w₂, hrun, alice_forgetful_unique, fun hagree => ?_⟩
  obtain ⟨u, hu, -, heq⟩ := hagree.get_user_by_id 7 _ w₃ hexec₃
  rw [hrows] at hu
  rw [List.mem_singleton.mp hu] at heq
  have hstamp := congrArg UserResponse.updated_at heq
  cases hstamp

end Authnz
