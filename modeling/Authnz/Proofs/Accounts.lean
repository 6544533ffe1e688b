/-
What requests make of the accounts.

`register` adds a row no other account clashes with, the two changes of password
rewrite one account's hash, the repository's update rewrites one account's columns
after a check of the unique indexes, and nothing else touches the table.
-/
import Authnz.Proofs.Keys

namespace Authnz

open Basis

/-- The schema's unique indexes on `users`. -/
def UniqueAccounts (rows : List Record) : Prop :=
  ∀ (d d' : Nat) (u u' : User), rows[d]? = some (.user u) → rows[d']? = some (.user u') →
    users.clash u u' = true → d = d'

theorem users_clash_comm (u v : User) : users.clash u v = users.clash v u := by
  simp only [users, Bool.beq_comm]

theorem clash_of_id {u v : User} (h : u.id = v.id) : users.clash u v = true := by
  simp [users, h]

section Accounts

variable {c : Crates} {me : Nat} {admits : World → Op → Choice → Prop} {w w' : World}

/-- Who has nothing in hand sees what is committed. -/
theorem sees_eq_rows {α : Type} {T : Relation α} (hset : w.Settled me) : w.sees me T = w.rows T := by
  have hseen : w.db.map (Slot.view me) = w.db.map Slot.current := hset
  change ((w.db.map (Slot.view me)).reduceOption).filterMap T.prj = _
  rw [hseen, List.reduceOption, List.filterMap_map]
  rfl

theorem mem_sees_rows {α : Type} {T : Relation α} (hset : w.Settled me) {a : α} :
    a ∈ w.sees me T ↔ a ∈ w.rows T := by
  rw [sees_eq_rows hset]

theorem get_user_by_username_ends (username : String) :
    EndsE c me admits (UserService.get_user_by_username username) w
      (fun w' u => w' = w ∧ u ∈ w.sees me users ∧ u.username = username)
      (fun w' _ => w' = w) := by
  refine endsE_bind (endsE_select ?_ fun _ _ => rfl)
  cases hrows : (w.sees me users).filter fun u => u.username == username with
  | nil => exact endsE_throw rfl
  | cons u us =>
      have hu : u ∈ (w.sees me users).filter fun u => u.username == username := by
        rw [hrows]
        exact List.mem_cons_self
      obtain ⟨hsees, hname⟩ := List.mem_filter.mp hu
      exact endsE_ret ⟨rfl, hsees, by simpa using hname⟩

theorem ends_middleware {cookie : String} {handler : Identity → Handler HttpResponse}
    {Q : World → HttpResponse → Prop}
    (h : ∀ id, admits w (.authenticate cookie) (.identity id) → Ends c me admits (handler id) w Q)
    (h401 : Q w (.finish 401)) : Ends c me admits (session_middleware cookie handler) w Q := by
  refine ends_bind (ends_ask fun ch w' session hch hans => ?_)
  obtain ⟨rfl, ⟨id, rfl, rfl⟩ | ⟨rfl, rfl⟩⟩ := World.answer_authenticate hans
  · exact h id hch
  · exact ends_ret h401

/-- The middleware finds this identity for the request's cookie, or none. -/
def LetInAs (who : Option Identity) (_ : World) (o : Op) (ch : Choice) : Prop :=
  match o with
  | .authenticate _ => ch = who.elim .fail .identity
  | _ => True

instance (who : Option Identity) (w : World) (o : Op) (ch : Choice) :
    Decidable (LetInAs who w o ch) := by
  unfold LetInAs
  split <;> infer_instance

/-- Every run of a request is one in which the middleware finds somebody, or nobody. -/
theorem ends_middleware_as {who : Option Identity}
    (hwho : ∀ w o ch, admits w o ch → LetInAs who w o ch) {cookie : String}
    {handler : Identity → Handler HttpResponse} {Q : World → HttpResponse → Prop}
    (h : ∀ id, who = some id → Ends c me admits (handler id) w Q)
    (h401 : Q w (.finish 401)) : Ends c me admits (session_middleware cookie handler) w Q := by
  refine ends_middleware (fun id hid => h id ?_) h401
  cases who with
  | none => cases hwho _ _ _ hid
  | some id' =>
      cases hwho _ _ _ hid
      rfl

/-- An update through the repository: refused, or one account rewritten, without a clash. -/
theorem update_accounts {user_id : Uuid} {dto : UpdateUser} {ch : Choice}
    {r : Op.Reply (.update user_id dto)}
    (h : World.answer c me (.update user_id dto) ch w = some (w', r)) (hst : w.Steady me users) :
    w'.Steady me users ∧ ((∀ d, w'.row users d = w.row users d) ∨
      ∃ d₀ u, w.row users d₀ = some u ∧ u.id = user_id ∧
        (∀ {d v}, w.row users d = some v → v.id ≠ user_id → users.clash (u.update dto) v = false) ∧
        ∀ d, w'.row users d = (w.row users d).map fun v =>
          if v.id == user_id then v.update dto else v) := by
  rcases World.answer_update h with ⟨rfl, -⟩ | ⟨u, r', hfind, hfree, hans, -⟩
  · exact ⟨hst, .inl fun _ => rfl⟩
  · rcases SqlOp.alone_write hans with ⟨hdesk, -⟩ | ⟨hf, -⟩
    · obtain ⟨d₀, hd₀⟩ := mem_rows_iff.mp (List.mem_of_find?_eq_some hfind)
      have hset : w'.Settled me := by
        rw [World.Settled, hdesk]
        rfl
      refine ⟨hset.steady users, .inr ⟨d₀, u, hd₀, ?_, fun hv hne => ?_, fun d => ?_⟩⟩
      · simpa using List.find?_some hfind
      · exact hfree _ (mem_rows_iff.mpr ⟨_, hv⟩) hne
      · rw [row_of_places, places_eq me, hdesk, ← hst, rowSeen_of_desk]
        change ((((w.db.desk me).seen.map _)[d]?).bind id).bind users.prj = _
        rw [List.getElem?_map]
        cases (w.db.desk me).seen[d]? with
        | none => rfl
        | some x => exact prj_rewrite_set _ _ x
    · cases hf

/-- One account rewritten, with names that no other has. -/
theorem Indexed.renamed (h : Indexed users w) (hst : w'.Steady 0 users) {id : Uuid}
    {dto : UpdateUser} {d₀ : Nat} {u₀ : User} (hu₀ : w.row users d₀ = some u₀) (hid : u₀.id = id)
    (hfree : ∀ {d v}, w.row users d = some v → v.id ≠ id → users.clash (u₀.update dto) v = false)
    (hrows : ∀ d, w'.row users d = (w.row users d).map fun v =>
      if v.id == id then v.update dto else v) : Indexed users w' := by
  have hold : ∀ {d u}, w'.row users d = some u → ∃ v, w.row users d = some v ∧
      (v.id = id ∧ u = u₀.update dto ∨ v.id ≠ id ∧ u = v) := by
    intro d u hu
    rw [hrows] at hu
    obtain ⟨v, hv, rfl⟩ := Option.map_eq_some_iff.mp hu
    refine ⟨v, hv, ?_⟩
    by_cases hvid : v.id = id
    · rw [h.eq_of_clash hv hu₀ (clash_of_id (hvid.trans hid.symm)), if_pos (beq_iff_eq.mpr hid)]
      exact .inl ⟨hid, rfl⟩
    · rw [if_neg (by simpa using hvid)]
      exact .inr ⟨hvid, rfl⟩
  refine ⟨hst, fun {d d' u u'} hu hu' hc => ?_⟩
  obtain ⟨v, hv, ⟨hvid, rfl⟩ | ⟨hvid, rfl⟩⟩ := hold hu <;>
    obtain ⟨v', hv', ⟨hvid', rfl⟩ | ⟨hvid', rfl⟩⟩ := hold hu'
  · exact h.unique hv hv' (clash_of_id (hvid.trans hvid'.symm))
  · rw [hfree hv' hvid'] at hc
    cases hc
  · rw [users_clash_comm, hfree hv hvid] at hc
    cases hc
  · exact h.unique hv hv' hc

/-- A successful `register` has added an account, with a name and an address nobody had. -/
theorem register_adds (hset : w.Settled me) (username email password : String) :
    EndsE c me admits (UserService.register c username email password) w
      (fun w' _ => ∃ u salt, (u.username = username ∧ u.email = email ∧
          u.password_hash = c.bcrypt_hash password salt ∧ u.email_confirmed = false) ∧
        password ≠ "" ∧ (∀ v ∈ w.sees me users, users.clash u v = false) ∧
        w'.places = w.places ++ [some (.user u)] ∧ w'.Settled me ∧ w' = { w with db := w'.db })
      (fun w' _ => w' = w) := by
  unfold UserService.register
  by_cases he : (username.isEmpty || password.isEmpty) = true
  · rw [if_pos he]
    exact endsE_throw rfl
  rw [if_neg he]
  have hne : password ≠ "" := by
    rintro rfl
    simp at he
  by_cases hs : c.zxcvbn_score password < 3
  · rw [if_pos hs]
    exact endsE_throw rfl
  rw [if_neg hs]
  refine endsE_bind (endsE_bcrypt_hash (fun salt => ?_) fun _ => rfl)
  refine endsE_bind (endsE_bind (endsE_lift (ends_now fun now => ?_)))
  refine endsE_insert (fun key w' hw hfree hdesk => ?_) (fun _ _ => rfl) fun _ => rfl
  obtain ⟨hset', hplaces⟩ := places_of_insert hset hdesk
  exact endsE_ret ⟨_, salt, ⟨rfl, rfl, rfl, rfl⟩, hne, hfree, hplaces, hset', hw⟩

/-- A successful `register` has added an account with this password. -/
theorem register_ends (hset : w.Settled me) (username email password : String) :
    EndsE c me admits (UserService.register c username email password) w
      (fun w' _ => ∃ u salt, u.username = username ∧ u.email = email ∧
        u.password_hash = c.bcrypt_hash password salt ∧ password ≠ "" ∧
        (∀ v ∈ w.sees me users, users.clash u v = false) ∧
        w'.places = w.places ++ [some (.user u)] ∧ w'.Settled me)
      (fun w' _ => w' = w) := by
  refine endsE_mono (register_adds hset username email password) ?_ fun _ _ h => h
  intro w' _ hpost
  obtain ⟨u, salt, ⟨hname, hemail, hhash, _⟩, hne, hfree, hplaces, hset', _⟩ := hpost
  exact ⟨u, salt, hname, hemail, hhash, hne, hfree, hplaces, hset'⟩

/-- A successful `confirm_password_reset` has found a row to redeem, has spent it, and has given the
account it returns this password. -/
theorem confirm_password_reset_redeems (hset : w.Settled me) (cmd : ConfirmPasswordResetCmd) :
    EndsE c me admits (UserService.confirm_password_reset c cmd) w
      (fun w' id => (∃ salt now, admits w .now (.time now) ∧
        (∃ q ∈ w.sees me password_resets, Redeemable (hash_token c cmd.token) now q = true ∧
          q.user_id = id) ∧
        w'.places = (w.places.map (Desk.rewrite
          (password_resets.sel (Redeemable (hash_token c cmd.token) now))
          (password_resets.set (·.spent)))).map (Desk.rewrite (users.sel (UserIs id))
            (users.set (·.with_hash_at (c.bcrypt_hash cmd.new_password salt) now)))) ∧
        ¬ c.zxcvbn_score cmd.new_password < 3 ∧ w'.Settled me)
      (fun w' _ => w'.places = w.places ∧ w'.Settled me) := by
  unfold UserService.confirm_password_reset
  by_cases hs : c.zxcvbn_score cmd.new_password < 3
  · rw [if_pos hs]
    exact endsE_throw ⟨rfl, hset⟩
  rw [if_neg hs]
  refine endsE_bind (endsE_lift (ends_ask fun ch w₀ now hch hans => ?_))
  obtain ⟨rfl, rfl⟩ := World.answer_now hans
  refine endsE_bind (endsE_begin ?_ fun _ _ => ⟨rfl, hset⟩)
  refine endsE_in_tx (endsE_mono
    (Q := fun (w' : World) id => (∃ q ∈ w₀.sees me password_resets,
      Redeemable (hash_token c cmd.token) now q = true ∧ q.user_id = id) ∧
      ∃ salt, w'.db.desk me = (((w₀.db.desk me).write
      (password_resets.sel (Redeemable (hash_token c cmd.token) now))
      (password_resets.set (·.spent))).write (users.sel (UserIs id))
      (users.set (·.with_hash_at (c.bcrypt_hash cmd.new_password salt) now))).commit)
    (E := fun (w' : World) _ => (w'.db.desk me).committed = (w₀.db.desk me).committed) ?_ ?_ ?_)
  · refine endsE_bind (endsE_update (fun w₁ _ hdesk₁ => ?_) fun _ _ => rfl)
    generalize hrows : ((w₀.sees me password_resets).filter _).map _ = rows
    cases rows with
    | nil => exact endsE_throw (by rw [hdesk₁]; rfl)
    | cons reset rest =>
        obtain ⟨q, qs, hq, rfl, -⟩ := List.map_eq_cons_iff.mp hrows
        have hfound := List.mem_filter.mp (hq ▸ List.mem_cons_self)
        refine endsE_bind (endsE_bcrypt_hash (fun salt => ?_) fun _ => by rw [hdesk₁]; rfl)
        refine endsE_bind (endsE_update (fun w₂ _ hdesk₂ => ?_) fun _ _ => by rw [hdesk₁]; rfl)
        refine endsE_bind (endsE_commit (fun w₃ _ hdesk₃ => ?_) fun w₃ _ _ hdesk₃ _ => ?_)
        · refine endsE_ret ⟨⟨q, hfound.1, hfound.2, rfl⟩, salt, ?_⟩
          rw [hdesk₃, hdesk₂, hdesk₁]
          rfl
        · rw [hdesk₃, hdesk₂, hdesk₁]
          rfl
  · intro w₁ id hpost w₂ _ hdesk₂
    obtain ⟨hfound, salt, hdesk₁⟩ := hpost
    refine ⟨⟨salt, now, hch, hfound, ?_⟩, hs, ?_⟩
    · rw [places_eq me, hdesk₂, hdesk₁, places_eq me w₀, ← hset]
      rfl
    · rw [World.Settled, hdesk₂]
      exact Desk.settled_rollback _
  · intro w₁ e hc w₂ _ hdesk₂
    refine ⟨?_, ?_⟩
    · rw [places_eq me, hdesk₂, places_eq me w₀, ← hc]
      rfl
    · rw [World.Settled, hdesk₂]
      exact Desk.settled_rollback _

/-- What becomes of the accounts. -/
theorem confirm_password_reset_ends (hset : w.Settled me) (cmd : ConfirmPasswordResetCmd) :
    EndsE c me admits (UserService.confirm_password_reset c cmd) w
      (fun w' id => (∃ salt now, w'.places = (w.places.map (Desk.rewrite
          (password_resets.sel (Redeemable (hash_token c cmd.token) now))
          (password_resets.set (·.spent)))).map (Desk.rewrite (users.sel (UserIs id))
            (users.set (·.with_hash_at (c.bcrypt_hash cmd.new_password salt) now)))) ∧
        ¬ c.zxcvbn_score cmd.new_password < 3 ∧ w'.Settled me)
      (fun w' _ => w'.places = w.places ∧ w'.Settled me) := by
  refine endsE_mono (confirm_password_reset_redeems hset cmd) ?_ fun _ _ h => h
  intro w' id hpost
  obtain ⟨⟨salt, now, _, _, hplaces⟩, hs, hset'⟩ := hpost
  exact ⟨⟨salt, now, hplaces⟩, hs, hset'⟩

/-- The account's row after a reset. -/
theorem row_of_reset {p : PasswordReset → Bool} {q : User → Bool} {f : User → User}
    (h : w'.places = (w.places.map (Desk.rewrite (password_resets.sel p)
      (password_resets.set (·.spent)))).map (Desk.rewrite (users.sel q) (users.set f))) (d : Nat) :
    w'.row users d = (w.row users d).map fun u => if q u then f u else u := by
  rw [row_of_places, row_of_places, h, List.getElem?_map, List.getElem?_map]
  cases w.places[d]? with
  | none => rfl
  | some x =>
      refine (prj_rewrite_set q f _).trans (congrArg (Option.map _) ?_)
      refine prj_rewrite_other (fun _ => rfl) p (fun r y hy => ?_) x
      rw [Relation.set_inj] at hy
      cases hy
      rfl

end Accounts

end Authnz
