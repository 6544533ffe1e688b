/-
What the replies on record say about the state.

The rights of `Proofs/Policing.lean` are about the replies a call has had.  Here is
why those can be believed, in any order of steps.  `Testimony` is what every step a
call is permitted keeps: rows answer for their history, a call holds rows only while
it writes, what is in a cache was put there by a call, a copy of an account is of
one there has been, and what came back from an INSERT that was committed is in the
table.  So at the moment a SELECT was answered its rows were the committed ones, what
a call took out of a cache some call had put there, and so on for each kind of reply.
-/
import Authnz.Basis.Moments
import Authnz.Basis.Once
import Authnz.Proofs.Issuing
import Authnz.Proofs.Policing
import Authnz.Proofs.Routes

namespace Authnz

open Basis

/-! ### The caches -/

section Stores

variable {c : Crates} {me : Nat} {o : Op} {ch : Choice} {w w' : World} {r : o.Reply}

/-- A new copy takes the place of the old one of the same account. -/
theorem copy_cases {cache : (id : Uuid) → Option { u : UserResponse // u.id = id }} {id id' : Uuid}
    {x : { u : UserResponse // u.id = id }} {y : { u : UserResponse // u.id = id' }}
    (h : Function.update cache id (some x) id' = some y) : cache id' = some y ∨ y.1 = x.1 := by
  by_cases hid : id' = id
  · subst hid
    rw [Function.update_self] at h
    cases h
    exact .inr rfl
  · rw [Function.update_of_ne hid] at h
    exact .inl h

/-- Operations that put nothing into the four caches of challenges and ceremonies, and what is left
of a cache after them. -/
structure OnlyLoses (w w' : World) : Prop where
  tokens : ∀ {k e}, w'.tokens k = some e → w.tokens k = some e
  links : ∀ {k e}, w'.links k = some e → w.links k = some e
  regs : ∀ {k e}, w'.reg_store k = some e → w.reg_store k = some e
  auths : ∀ {k e}, w'.auth_store k = some e → w.auth_store k = some e

theorem OnlyLoses.refl (w : World) : OnlyLoses w w := ⟨id, id, id, id⟩

theorem OnlyLoses.expire (e : Expiry) (w : World) : OnlyLoses w (w.expire e) := by
  cases e with
  | token k => exact ⟨stored_of_removal, id, id, id⟩
  | link k => exact ⟨id, stored_of_removal, id, id⟩
  | user id' => exact ⟨id, id, id, id⟩
  | reg_state k => exact ⟨id, id, stored_of_removal, id⟩
  | auth_state k => exact ⟨id, id, id, stored_of_removal⟩

/-- What is in a cache after an operation was there, or is what the operation put there. -/
structure Stocks (a : (o : Op) × o.Reply) (w w' : World) : Prop where
  tokens : ∀ {k e}, w'.tokens k = some e → w.tokens k = some e ∨ a = ⟨.tokens_insert k e, ()⟩
  links : ∀ {k e}, w'.links k = some e → w.links k = some e ∨ a = ⟨.links_insert k e, ()⟩
  regs : ∀ {k e}, w'.reg_store k = some e → w.reg_store k = some e ∨ a = ⟨.reg_set k e, Except.ok ()⟩
  auths : ∀ {k e}, w'.auth_store k = some e →
    w.auth_store k = some e ∨ a = ⟨.auth_set k e, Except.ok ()⟩

theorem OnlyLoses.stocks {a : (o : Op) × o.Reply} (h : OnlyLoses w w') : Stocks a w w' :=
  ⟨fun hk => .inl (h.tokens hk), fun hk => .inl (h.links hk), fun hk => .inl (h.regs hk),
    fun hk => .inl (h.auths hk)⟩

theorem answer_stocks (h : World.answer c me o ch w = some (w', r)) : Stocks ⟨o, r⟩ w w' := by
  cases o with
  | sql q =>
      obtain ⟨out, -, -, hw⟩ := World.answer_sql h
      rw [hw]
      exact OnlyLoses.stocks ⟨id, id, id, id⟩
  | retrieve id' =>
      rw [(World.answer_retrieve h).1]
      exact OnlyLoses.stocks ⟨id, id, id, id⟩
  | update id' dto =>
      rcases World.answer_update h with ⟨rfl, -⟩ | ⟨u, r', -, -, -, hw⟩
      · exact (OnlyLoses.refl _).stocks
      · rw [hw]
        exact OnlyLoses.stocks ⟨id, id, id, id⟩
  | tokens_insert k e =>
      rw [World.answer_tokens_insert h]
      refine ⟨fun hk => ?_, .inl, .inl, .inl⟩
      rcases stored_of_entry hk with hold | ⟨rfl, rfl⟩
      · exact .inl hold
      · exact .inr rfl
  | links_insert k e =>
      rw [World.answer_links_insert h]
      refine ⟨.inl, fun hk => ?_, .inl, .inl⟩
      rcases stored_of_entry hk with hold | ⟨rfl, rfl⟩
      · exact .inl hold
      · exact .inr rfl
  | tokens_remove k =>
      rw [(World.answer_tokens_remove h).1]
      exact OnlyLoses.stocks (OnlyLoses.expire (.token k) w)
  | links_remove k =>
      rw [(World.answer_links_remove h).1]
      exact OnlyLoses.stocks (OnlyLoses.expire (.link k) w)
  | reg_set k s =>
      rcases World.doneOr_iff.mp h with ⟨-, heq⟩ | ⟨-, heq⟩ <;> cases heq
      · refine ⟨.inl, .inl, fun hk => ?_, .inl⟩
        rcases stored_of_entry hk with hold | ⟨rfl, rfl⟩
        · exact .inl hold
        · exact .inr rfl
      · exact (OnlyLoses.refl _).stocks
  | auth_set k s =>
      rcases World.doneOr_iff.mp h with ⟨-, heq⟩ | ⟨-, heq⟩ <;> cases heq
      · refine ⟨.inl, .inl, .inl, fun hk => ?_⟩
        rcases stored_of_entry hk with hold | ⟨rfl, rfl⟩
        · exact .inl hold
        · exact .inr rfl
      · exact (OnlyLoses.refl _).stocks
  | reg_delete k =>
      rcases World.doneOr_iff.mp h with ⟨-, heq⟩ | ⟨-, heq⟩ <;> cases heq
      · exact OnlyLoses.stocks (OnlyLoses.expire (.reg_state k) w)
      · exact (OnlyLoses.refl _).stocks
  | auth_delete k =>
      rcases World.doneOr_iff.mp h with ⟨-, heq⟩ | ⟨-, heq⟩ <;> cases heq
      · exact OnlyLoses.stocks (OnlyLoses.expire (.auth_state k) w)
      · exact (OnlyLoses.refl _).stocks
  | _ =>
      rw [World.answer_idle h trivial]
      exact (OnlyLoses.refl _).stocks

end Stores

/-! ### The database -/

section Database

variable {c : Crates} {me : Nat} {o : Op} {ch : Choice} {w w' : World} {r : o.Reply}

theorem answer_had_at (h : World.answer c me o ch w = some (w', r)) {d : Nat} {row : Record}
    (hrow : w.db.HadAt d row) : w'.db.HadAt d row := by
  rcases World.answer_db h with heq | ⟨q, out, r', -, hans⟩
  · rwa [heq]
  · exact hrow.answer hans

theorem answer_had (h : World.answer c me o ch w = some (w', r)) {row : Record}
    (hrow : w.db.Had row) : w'.db.Had row := by
  rcases World.answer_db h with heq | ⟨q, out, r', -, hans⟩
  · rwa [heq]
  · exact hrow.answer hans

theorem answer_version (h : World.answer c me o ch w = some (w', r)) {d : Nat} {s : Slot Record}
    {x : Version Record} (hs : w.db[d]? = some s) (hx : x ∈ s.versions) :
    ∃ s', w'.db[d]? = some s' ∧ x ∈ s'.versions := by
  rcases World.answer_db h with heq | ⟨q, out, r', -, hans⟩
  · exact ⟨s, by rw [heq, hs], hx⟩
  · exact Table.version_stays hans hs hx

theorem had_of_rows {α : Type} {T : Relation α} {a : α} (h : a ∈ w.rows T) :
    ∃ (d : Nat) (s : Slot Record), w.db[d]? = some s ∧ s.current = some (T.inj a) := by
  obtain ⟨row, hrow, hprj⟩ := List.mem_filterMap.mp h
  obtain ⟨s, hs, hc⟩ := List.mem_filterMap.mp hrow
  obtain ⟨d, hd⟩ := List.mem_iff_getElem?.mp hs
  exact ⟨d, s, hd, by rw [hc, T.inj_of_prj hprj]⟩

section Permitted

variable {α Call : Type} {R : Rights Call α} {call : Call} {log : Replies} {k d : Nat}
  {v : Option Record}

/-- What others hold does not change. -/
theorem answer_locked_other (hpermits : R.Permits call log o)
    (h : World.answer c me o ch w = some (w', r)) (hk : k ≠ me) :
    w'.db.Locked k d v ↔ w.db.Locked k d v := by
  cases o with
  | sql q =>
      obtain ⟨out, -, hans, -⟩ := World.answer_sql h
      exact (SqlOp.Part.effect hpermits.part hans).locked_iff hk
  | update id dto =>
      rcases World.answer_update h with ⟨rfl, -⟩ | ⟨u, r', -, -, hans, -⟩
      · exact Iff.rfl
      · exact ⟨fun hl => (SqlOp.locked_write_pool hans hl).2, SqlOp.locked_other_pool hans hk⟩
  | _ => rw [World.answer_quiet (by trivial) h]

/-- The caller holds a row only while it is writing. -/
theorem answer_holding (hpermits : R.Permits call log o)
    (h : World.answer c me o ch w = some (w', r))
    (hme : ∀ d v, w.db.Locked me d v → writing log = true) (hl : w'.db.Locked me d v) :
    writing (⟨o, r⟩ :: log) = true := by
  have hquiet : w'.db = w.db → writing log = true := fun heq => hme d v (by rwa [← heq])
  cases o with
  | sql q =>
      cases hpermits.part with
      | begin => exact hquiet (by rw [World.answer_begin h])
      | select p => exact hquiet (by rw [(World.answer_select h).1])
      | scan p => exact hquiet (by rw [(World.answer_scan h).1])
      | insert mk clash => rfl
      | visit i p f => rfl
      | commit =>
          rcases World.answer_commit h with ⟨heq, -⟩ | ⟨heq, -⟩ <;> rw [heq] at hl
          · exact absurd ((Table.Holds.commit w.db d v).mp hl) List.not_mem_nil
          · exact absurd ((Table.Holds.rollback w.db d v).mp hl) List.not_mem_nil
      | rollback =>
          rw [World.answer_rollback h] at hl
          exact absurd ((Table.Holds.rollback w.db d v).mp hl) List.not_mem_nil
  | update id dto =>
      rcases World.answer_update h with ⟨rfl, -⟩ | ⟨u, r', -, -, hans, -⟩
      · exact hquiet rfl
      · exact absurd rfl (SqlOp.locked_write_pool hans hl).1
  | _ => exact hquiet (World.answer_quiet (by trivial) h)

/-- What a call holds it has taken in this transaction, and it had been committed before; unless the
call has added rows. -/
def InHand (log : Replies) (t : Table Record) (d : Nat) : Prop :=
  adding log = true ∨ (∃ p, (d, p) ∈ taken log) ∧ ∃ a, t.HadAt d a

/-- The caller takes what it holds. -/
theorem answer_in_hand (hpermits : R.Permits call log o)
    (h : World.answer c me o ch w = some (w', r))
    (hme : ∀ d v, w.db.Locked me d v → InHand log w.db d) (hl : w'.db.Locked me d v) :
    InHand (⟨o, r⟩ :: log) w'.db d := by
  have hquiet : w'.db = w.db → InHand log w'.db d := fun heq => by
    rw [heq] at hl ⊢
    exact hme d v hl
  cases o with
  | sql q =>
      cases hpermits.part with
      | begin => exact hquiet (by rw [World.answer_begin h])
      | select p => exact hquiet (by rw [(World.answer_select h).1])
      | scan p => exact hquiet (by rw [(World.answer_scan h).1])
      | insert mk clash => exact .inl rfl
      | visit i p f =>
          obtain ⟨out, -, hans, -⟩ := World.answer_sql h
          have hold : ∀ u, w.db.Locked me d u →
              InHand (⟨.sql (.visit i p f), r⟩ :: log) w'.db d := by
            intro u hl
            rcases hme d u hl with hadding | ⟨⟨q, hq⟩, a, ha⟩
            · exact .inl hadding
            · exact .inr ⟨⟨q, List.mem_cons_of_mem _ hq⟩, a, ha.answer hans⟩
          rcases World.answer_visit h with ⟨heq, -⟩ | ⟨s, a, hs, hfree, hv, hp, hdb, -⟩
          · exact hold v (by rwa [← heq])
          · by_cases hd : d = i
            · subst hd
              rcases Slot.free_iff.mp hfree with hlock | ⟨u, hu⟩
              · have hcur : s.current = some a := (Slot.view_of_unlocked hlock me).symm.trans hv
                have hhad := (Table.had_at_of_current hs hcur).answer hans
                exact .inr ⟨⟨p, List.mem_cons_self⟩, a, hhad⟩
              · exact hold u ⟨s, hs, hu⟩
            · refine hold v ?_
              obtain ⟨s', hs', hlock⟩ := hl
              rw [hdb, List.getElem?_set_ne (Ne.symm hd)] at hs'
              exact ⟨s', hs', hlock⟩
      | commit =>
          rcases World.answer_commit h with ⟨heq, -⟩ | ⟨heq, -⟩ <;> rw [heq] at hl
          · exact absurd ((Table.Holds.commit w.db d v).mp hl) List.not_mem_nil
          · exact absurd ((Table.Holds.rollback w.db d v).mp hl) List.not_mem_nil
      | rollback =>
          rw [World.answer_rollback h] at hl
          exact absurd ((Table.Holds.rollback w.db d v).mp hl) List.not_mem_nil
  | update id dto =>
      rcases World.answer_update h with ⟨rfl, -⟩ | ⟨u, r', -, -, hans, -⟩
      · exact hquiet rfl
      · exact absurd rfl (SqlOp.locked_write_pool hans hl).1
  | _ => exact hquiet (World.answer_quiet (by trivial) h)

/-- A permitted step changes rows as the caller has the right to. -/
theorem answer_warranted {add : Nat → Record → Prop} {make : Nat → Record → Option Record → Prop}
    {rows : List Record} (hpermits : R.Permits call log o)
    (h : World.answer c me o ch w = some (w', r)) (hw : w.db.Warranted add make rows)
    (hadd : ∀ a, R.Add call log a → add me a)
    (hmake : ∀ a v, R.Make call log a v → make me a v) : w'.db.Warranted add make rows := by
  cases o with
  | sql q =>
      obtain ⟨out, -, hans, -⟩ := World.answer_sql h
      exact hw.answer hans (fun a ha => hadd a (hpermits.adds a ha))
        fun a v ha => hmake a v (hpermits.makes a v ha)
  | update id dto =>
      rcases World.answer_update h with ⟨rfl, -⟩ | ⟨u, r', -, -, hans, -⟩
      · exact hw
      · refine hw.answer hans (fun a ha => ha.elim) fun a v ha => ?_
        obtain ⟨u, rfl, hid⟩ := users.sel_iff.mp ha.1
        obtain rfl : some (.user (u.update dto)) = v := (users.set_inj ..).symm.trans ha.2
        exact hmake _ _ (hpermits.2 u (by simpa using hid))
  | _ => rwa [World.answer_quiet (by trivial) h]

end Permitted

end Database

/-! ### What calls have done -/

section Deeds

variable {Call α : Type} (R : Rights Call α) (cfg : Config Op Op.Reply World Call α)

/-- Call `k` has had the right to add this row. -/
def HasAdded (k : Nat) (r : Record) : Prop :=
  ∃ call past, cfg.call k = some call ∧ past <:+ cfg.log k ∧ R.Add call past r

/-- Call `k` has had the right to make that of this row. -/
def HasMade (k : Nat) (r : Record) (v : Option Record) : Prop :=
  ∃ call past, cfg.call k = some call ∧ past <:+ cfg.log k ∧ R.Make call past r v

/-- A call has put this into a cache, and had the right to. -/
def HasPut (a : (o : Op) × o.Reply) : Prop :=
  ∃ k call past, cfg.call k = some call ∧ a :: past <:+ cfg.log k ∧ R.Put call past a.1

end Deeds

section Later

variable {Call α : Type} {R : Rights Call α} {cfg cfg' : Config Op Op.Reply World Call α} {k : Nat}

theorem HasAdded.later (hlater : Policy.Later cfg cfg') {r : Record} (h : HasAdded R cfg k r) :
    HasAdded R cfg' k r := by
  obtain ⟨call, past, hcall, hpast, hadd⟩ := h
  exact ⟨call, past, hlater.call hcall, hpast.trans (hlater.log k), hadd⟩

theorem HasMade.later (hlater : Policy.Later cfg cfg') {r : Record} {v : Option Record}
    (h : HasMade R cfg k r v) : HasMade R cfg' k r v := by
  obtain ⟨call, past, hcall, hpast, hmake⟩ := h
  exact ⟨call, past, hlater.call hcall, hpast.trans (hlater.log k), hmake⟩

theorem HasPut.later (hlater : Policy.Later cfg cfg') {a : (o : Op) × o.Reply}
    (h : HasPut R cfg a) : HasPut R cfg' a := by
  obtain ⟨k, call, past, hcall, hpast, hput⟩ := h
  exact ⟨k, call, past, hlater.call hcall, hpast.trans (hlater.log k), hput⟩

end Later

/-- **What is known of the state, and of the calls behind it.** -/
structure Testimony {Call α : Type} (R : Rights Call α) (rows : List Record)
    (cfg : Config Op Op.Reply World Call α) : Prop where
  warranted : cfg.shared.db.Warranted (HasAdded R cfg) (HasMade R cfg) rows
  /-- A call holds rows only while it is writing. -/
  holding : ∀ {k d v}, cfg.shared.db.Locked k d v → writing (cfg.log k) = true
  in_hand : ∀ {k d v}, cfg.shared.db.Locked k d v → InHand (cfg.log k) cfg.shared.db d
  copies : ∀ {id u}, cfg.shared.user_cache id = some u →
    ∃ v : User, cfg.shared.db.Had (.user v) ∧ UserResponse.of v = u.1
  tokens : ∀ {key e}, cfg.shared.tokens key = some e → HasPut R cfg ⟨.tokens_insert key e, ()⟩
  links : ∀ {key e}, cfg.shared.links key = some e → HasPut R cfg ⟨.links_insert key e, ()⟩
  regs : ∀ {key t}, cfg.shared.reg_store key = some t →
    HasPut R cfg ⟨.reg_set key t, Except.ok ()⟩
  auths : ∀ {key t}, cfg.shared.auth_store key = some t →
    HasPut R cfg ⟨.auth_set key t, Except.ok ()⟩
  /-- A row just inserted is held. -/
  inserting : ∀ {k mk clash row past},
    cfg.log k = ⟨.sql (.insert .tx mk clash), Except.ok row⟩ :: past →
    ∃ d, cfg.shared.db.Locked k d (some row)
  /-- A row inserted and committed is in the table. -/
  inserted : ∀ {k mk clash row past}, ⟨.sql .commit, Except.ok ()⟩ ::
      ⟨.sql (.insert .tx mk clash), Except.ok row⟩ :: past <:+ cfg.log k →
    ∃ (d : Nat) (s : Slot Record), cfg.shared.db[d]? = some s ∧ ⟨some k, some row⟩ ∈ s.versions

/-- Nobody holds a row yet. -/
theorem not_locked_at_start (rows : List Record) {k d : Nat} {v : Option Record} :
    ¬ (World.of rows).db.Locked k d v := by
  rintro ⟨s, hs, hl⟩
  change (rows.map Slot.loaded)[d]? = some s at hs
  rw [List.getElem?_map] at hs
  obtain ⟨r, -, rfl⟩ := Option.map_eq_some_iff.mp hs
  cases hl

theorem testimony_start {Call α : Type} (R : Rights Call α) (rows : List Record) :
    Testimony R rows ⟨World.of rows, []⟩ where
  warranted := Table.Warranted.start rows
  holding hl := absurd hl (not_locked_at_start rows)
  in_hand hl := absurd hl (not_locked_at_start rows)
  copies h := by cases h
  tokens h := by cases h
  links h := by cases h
  regs h := by cases h
  auths h := by cases h
  inserting h := by cases h
  inserted h := by cases List.suffix_nil.mp h

/-! ### Every step keeps it -/

section Steps

variable {Call α : Type} {R : Rights Call α} {c : Crates} {rows : List Record}
  {cfg cfg' : Config Op Op.Reply World Call α}

theorem had_of_load {id : Uuid} {u : { u : UserResponse // u.id = id }} {w : World}
    (h : w.load id = some u) : ∃ v : User, w.db.Had (.user v) ∧ UserResponse.of v = u.1 := by
  unfold World.load at h
  split at h
  · rename_i v hv
    cases h
    obtain ⟨d, s, hs, hc⟩ := had_of_rows (List.mem_of_find?_eq_some hv)
    exact ⟨v, Table.had_of_current hs hc, rfl⟩
  · cases h

/-- A call that is not writing holds nothing. -/
theorem Testimony.idle (h : Testimony R rows cfg) {i : Nat} (hw : writing (cfg.log i) = false) (d : Nat)
    (v : Option Record) : ¬ cfg.shared.db.Locked i d v := fun hl => by
  have hwriting := h.holding hl
  rw [hw] at hwriting
  cases hwriting

/-- A copy in the user cache is of a row there has been. -/
theorem Testimony.answer_copies (h : Testimony R rows cfg) {i : Nat} {call : Call} {o : Op}
    {ch : Choice} {w' : World} {r : o.Reply} (hpermits : R.Permits call (cfg.log i) o)
    (hans : World.answer c i o ch cfg.shared = some (w', r)) {id : Uuid}
    {u : { u : UserResponse // u.id = id }} (hu : w'.user_cache id = some u) :
    ∃ v : User, w'.db.Had (.user v) ∧ UserResponse.of v = u.1 := by
  have hold : ∀ {id : Uuid} {u : { u : UserResponse // u.id = id }},
      cfg.shared.user_cache id = some u → ∃ v : User, w'.db.Had (.user v) ∧
        UserResponse.of v = u.1 := by
    intro id u hu
    obtain ⟨v, hv, hof⟩ := h.copies hu
    exact ⟨v, answer_had hans hv, hof⟩
  by_cases hr : ∃ id, o = .retrieve id
  · obtain ⟨id', rfl⟩ := hr
    change World.answerRetrieve id' ch cfg.shared = some (w', r) at hans
    unfold World.answerRetrieve at hans
    split at hans
    · obtain ⟨copy, -, heq⟩ := Option.map_eq_some_iff.mp hans
      cases heq
      exact hold hu
    · split at hans
      · rename_i copy hcopy
        cases hans
        rcases copy_cases hu with hu | heq
        · exact hold hu
        · exact heq ▸ had_of_load hcopy
      · cases hans
        exact hold hu
    · cases hans
      exact hold hu
    · cases hans
  by_cases hup : ∃ id dto, o = .update id dto
  · obtain ⟨id', dto, rfl⟩ := hup
    have hnone := h.idle hpermits.1
    rcases answer_update_copy hans with rfl | ⟨v, r', hv, -, hdb, hw⟩
    · exact hold hu
    · rw [hw] at hu
      rcases copy_cases hu with hu | heq
      · exact hold hu
      · obtain ⟨d, s, hs, hc⟩ := had_of_rows (List.mem_of_find?_eq_some hv)
        have hid : v.id = id' := by simpa using List.find?_some hv
        have hp : users.sel (fun v => v.id == id') (users.inj v) = true :=
          by simpa using hid
        exact ⟨v.update dto, SqlOp.had_write_pool hdb hnone hs hc hp (users.set_inj ..), heq.symm⟩
  · rw [user_cache_of_answer (fun id heq => hr ⟨id, heq⟩) (fun id dto heq => hup ⟨id, dto, heq⟩)
      hans] at hu
    exact hold hu

/-- A step that changes neither the database nor a log. -/
theorem Testimony.still (h : Testimony R rows cfg) (hlater : Policy.Later cfg cfg')
    (hlog : ∀ k, cfg'.log k = cfg.log k) (hdb : cfg'.shared.db = cfg.shared.db)
    (hlost : OnlyLoses cfg.shared cfg'.shared)
    (hcopies : ∀ {id u}, cfg'.shared.user_cache id = some u → cfg.shared.user_cache id = some u) :
    Testimony R rows cfg' := by
  refine ⟨?_, ?_, ?_, ?_, fun hk => (h.tokens (hlost.tokens hk)).later hlater,
    fun hk => (h.links (hlost.links hk)).later hlater, fun hk => (h.regs (hlost.regs hk)).later hlater,
    fun hk => (h.auths (hlost.auths hk)).later hlater, ?_, ?_⟩
  · rw [hdb]
    exact h.warranted.mono (fun k r => HasAdded.later hlater) fun k r v => HasMade.later hlater
  · intro k d v hl
    rw [hdb] at hl
    rw [hlog]
    exact h.holding hl
  · intro k d v hl
    rw [hdb] at hl ⊢
    rw [hlog]
    exact h.in_hand hl
  · intro id u hu
    rw [hdb]
    exact h.copies (hcopies hu)
  · intro k mk clash row past heq
    rw [hlog] at heq
    rw [hdb]
    exact h.inserting heq
  · intro k mk clash row past hsuf
    rw [hlog] at hsuf
    rw [hdb]
    exact h.inserted hsuf

/-- A permitted operation. -/
theorem Testimony.answer (h : Testimony R rows cfg) {i : Nat} {call : Call} {o : Op}
    {ch : Choice} {r : o.Reply} (hlater : Policy.Later cfg cfg') (hcall : cfg.call i = some call)
    (hpermits : R.Permits call (cfg.log i) o)
    (hans : World.answer c i o ch cfg.shared = some (cfg'.shared, r))
    (hlog : cfg'.log i = ⟨o, r⟩ :: cfg.log i) (hother : ∀ j, j ≠ i → cfg'.log j = cfg.log j) :
    Testimony R rows cfg' := by
  have hcall' : cfg'.call i = some call := hlater.call hcall
  have hpast : cfg.log i <:+ cfg'.log i := hlater.log i
  have hput : R.Put call (cfg.log i) o → HasPut R cfg' ⟨o, r⟩ := fun hp =>
    ⟨i, call, cfg.log i, hcall', hlog ▸ List.suffix_refl _, hp⟩
  have hstocks := answer_stocks hans
  refine ⟨?_, ?_, ?_, h.answer_copies hpermits hans, ?_, ?_, ?_, ?_, ?_, ?_⟩
  · refine answer_warranted hpermits hans
      (h.warranted.mono (fun k r => HasAdded.later hlater) fun k r v => HasMade.later hlater) ?_ ?_
    · exact fun a ha => ⟨call, cfg.log i, hcall', hpast, ha⟩
    · exact fun a v ha => ⟨call, cfg.log i, hcall', hpast, ha⟩
  · intro k d v hl
    by_cases hk : k = i
    · subst hk
      rw [hlog]
      exact answer_holding hpermits hans (fun d v => h.holding) hl
    · rw [hother k hk]
      exact h.holding ((answer_locked_other hpermits hans hk).mp hl)
  · intro k d v hl
    by_cases hk : k = i
    · subst hk
      rw [hlog]
      exact answer_in_hand hpermits hans (fun d v => h.in_hand) hl
    · rw [hother k hk]
      rcases h.in_hand ((answer_locked_other hpermits hans hk).mp hl) with hadding | ⟨htaken, a, ha⟩
      · exact .inl hadding
      · exact .inr ⟨htaken, a, answer_had_at hans ha⟩
  · intro key e he
    rcases hstocks.tokens he with hold | heq
    · exact (h.tokens hold).later hlater
    · cases heq
      exact hput hpermits
  · intro key e he
    rcases hstocks.links he with hold | heq
    · exact (h.links hold).later hlater
    · cases heq
      exact hput hpermits
  · intro key e he
    rcases hstocks.regs he with hold | heq
    · exact (h.regs hold).later hlater
    · cases heq
      exact hput hpermits
  · intro key e he
    rcases hstocks.auths he with hold | heq
    · exact (h.auths hold).later hlater
    · cases heq
      exact hput hpermits
  · intro k mk clash row past heq
    by_cases hk : k = i
    · subst hk
      rw [hlog] at heq
      cases heq
      rcases World.answer_insert hans with ⟨-, e, hr⟩ | ⟨key, -, -, -, hdb, hr⟩
      · cases hr
      · cases hr
        exact ⟨cfg.shared.db.length, Slot.fresh k (mk key), by rw [hdb]; simp, rfl⟩
    · rw [hother k hk] at heq
      obtain ⟨d, hl⟩ := h.inserting heq
      exact ⟨d, (answer_locked_other hpermits hans hk).mpr hl⟩
  · intro k mk clash row past hsuf
    have hold : ⟨.sql .commit, Except.ok ()⟩ ::
        ⟨.sql (.insert .tx mk clash), Except.ok row⟩ :: past <:+ cfg.log k →
        ∃ (d : Nat) (s : Slot Record), cfg'.shared.db[d]? = some s ∧
          ⟨some k, some row⟩ ∈ s.versions := by
      intro hold
      obtain ⟨d, s, hs, hx⟩ := h.inserted hold
      obtain ⟨s', hs', hx'⟩ := answer_version hans hs hx
      exact ⟨d, s', hs', hx'⟩
    by_cases hk : k = i
    · subst hk
      rw [hlog] at hsuf
      rcases List.suffix_cons_iff.mp hsuf with heq | hsuf
      · obtain ⟨hcommit, hpast⟩ := List.cons.inj heq
        cases hcommit
        obtain ⟨d, s, hs, hl⟩ := h.inserting hpast.symm
        have hdb := World.answer_committed hans
        refine ⟨d, s.commit k, by rw [hdb, List.getElem?_map, hs, Option.map_some], ?_⟩
        rw [Slot.commit_of_own hl]
        exact List.mem_cons_self
      · exact hold hsuf
    · rw [hother k hk] at hsuf
      exact hold hsuf

/-- **Every step a call is permitted keeps the testimony true.** -/
theorem Testimony.step {code : Call → Handler α} (h : Testimony R rows cfg)
    (hstep : Policy.Step R.policy (service c code) cfg cfg') : Testimony R rows cfg' := by
  cases hstep with
  | spawn hlater hshared hlog =>
      exact h.still hlater hlog (by rw [hshared]) (hshared ▸ OnlyLoses.refl _)
        (by rw [hshared]; exact id)
  | env e hlater hshared hlog =>
      refine h.still hlater hlog (by rw [hshared]; exact World.expire_db e _)
        (hshared ▸ OnlyLoses.expire e _) fun {id u} hu => ?_
      rw [hshared] at hu
      cases e with
      | user id' => exact stored_of_removal hu
      | _ => exact hu
  | step hlater hi hcall hpermits hans hlog hother =>
      exact h.answer hlater hcall hpermits hans hlog hother

/-- **After every run**, whatever the order of the steps, calls have kept to their rights, and the
testimony is true. -/
theorem run_testimony {code : Call → Handler α}
    (hcode : ∀ call, R.policy.protocol.Follows call ((service c code).code call))
    {evs : List (Basis.Event Choice Call Expiry)}
    (hrun : (service c code).run ⟨World.of rows, []⟩ evs = some cfg) :
    R.policy.Upheld cfg ∧ Testimony R rows cfg :=
  Policy.run_upheld hcode (testimony_start R rows) (fun h hstep => h.step hstep) hrun

end Steps

end Authnz
