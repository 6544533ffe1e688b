/-
What the service's calls have done, by their replies.

`deeds` reads off a call's replies which rows it has added and changed, and which of
that it has committed.  After every run, whatever the order of the steps, the deeds
of every call account for what it has in the table.
-/
import Authnz.Basis.Deeds
import Authnz.Proofs.Testimony

namespace Authnz

open Basis

/-- What an operation adds to the deeds: the repository's update is a statement of its own. -/
def deeds_step (l : Deeds Record) : (o : Op) → o.Reply → Deeds Record
  | .sql q, r => l.enter q r
  | .update id _, Except.ok _ => (l.rewrite (users.sel fun u => u.id == id)).settle
  | _, _ => l

/-- What a call with these replies has done. -/
def deeds (log : Replies) : Deeds Record := Log.fold deeds_step .blank log

theorem deeds_cons (o : Op) (r : o.Reply) (log : Replies) :
    deeds (⟨o, r⟩ :: log) = deeds_step (deeds log) o r := rfl

/-- Between transactions nothing is left open. -/
theorem nothing_opened {log : Replies} (h : writing log = false) : (deeds log).opened = [] := by
  induction log with
  | nil => rfl
  | cons e log ih =>
      obtain ⟨o, r⟩ := e
      rw [deeds_cons]
      cases o with
      | sql q =>
          cases q with
          | commit => cases r <;> rfl
          | rollback => rfl
          | visit | insert | write => cases h
          | begin | select | scan => exact ih h
      | update id dto =>
          cases r with
          | ok u => rfl
          | error e => exact ih h
      | _ => exact ih h

/-- A call that has no new row in hand has added none. -/
theorem nothing_added {log : Replies} (h : adding log = false) (mk : Nat → Record) (row : Record) :
    .added mk row ∉ (deeds log).opened := by
  induction log generalizing mk row with
  | nil => exact List.not_mem_nil
  | cons e log ih =>
      obtain ⟨o, r⟩ := e
      rw [deeds_cons]
      cases o with
      | sql q =>
          cases q with
          | commit => cases r <;> exact List.not_mem_nil
          | rollback => exact List.not_mem_nil
          | insert => cases h
          | visit i p f =>
              cases r with
              | error e => exact ih h mk row
              | ok rows =>
                  exact Deeds.not_added_change (fun mk row => ih h mk row) mk row
          | begin | select | scan | write => exact ih h mk row
      | update id dto =>
          cases r with
          | ok u => exact List.not_mem_nil
          | error e => exact ih h mk row
      | _ => exact ih h mk row

section Steps

variable {Call α : Type} {R : Rights Call α} {call : Call} {log : Replies} {c : Crates} {me k : Nat}
  {o : Op} {ch : Choice} {w w' : World} {r : o.Reply} {make : Record → Option Record → Prop}

/-- An update through the repository is refused, or it finds the user and rewrites the row. -/
theorem answer_update_found {id : Uuid} {dto : UpdateUser} {r : Op.Reply (.update id dto)}
    (hans : World.answer c me (.update id dto) ch w = some (w', r)) :
    (w' = w ∧ ∃ e, r = Except.error e) ∨ ∃ u copy r', r = Except.ok copy ∧
      (w.rows users).find? (fun v => v.id == id) = some u ∧
      SqlOp.answer me (.write .pool (users.sel fun v => v.id == id)
        (users.set fun v => v.update dto)) (.done 0) w.db = some (w'.db, r') := by
  cases ch with
  | go =>
      change World.answerUpdate me id dto w = some (w', r) at hans
      unfold World.answerUpdate at hans
      split at hans
      · cases hans
      · rename_i u hu
        obtain ⟨-, heq⟩ | ⟨-, heq⟩ := ite_eq_iff.mp hans
        · cases heq
        · split at heq
          · rename_i db r' hdb
            cases heq
            exact .inr ⟨u, _, r', rfl, hu, hdb⟩
          · cases heq
  | refuse e =>
      cases hans
      exact .inl ⟨rfl, e, rfl⟩
  | _ => cases hans

/-- A permitted operation keeps the deeds right. -/
theorem answer_accounts (hpermits : R.Permits call log o)
    (hans : World.answer c me o ch w = some (w', r)) (h : w.db.Accounts make me (deeds log))
    (hmake : ∀ a v, R.Make call log a v → make a v) :
    w'.db.Accounts make me (deeds (⟨o, r⟩ :: log)) := by
  rw [deeds_cons]
  cases o with
  | sql q =>
      have hlicensed : R.Licensed call log q := hpermits
      obtain ⟨out, -, hdb, -⟩ := World.answer_sql hans
      refine h.answer hlicensed.part hdb (fun a v hm => hmake a v (hlicensed.makes a v hm)) ?_
      rintro ⟨i, p, f, rfl⟩
      exact nothing_added hlicensed.order.1
  | update id dto =>
      obtain ⟨hidle, hmakes⟩ := hpermits
      rcases answer_update_found hans with ⟨rfl, e, rfl⟩ | ⟨u, copy, r', rfl, hu, hdb⟩
      · exact h
      · obtain ⟨d, s, hs, hc⟩ := had_of_rows (List.mem_of_find?_eq_some hu)
        have hnone := nothing_opened hidle
        have hid : u.id = id := by simpa using List.find?_some hu
        -- the row it finds is in nobody's hands but its own, and it has none
        have hview : s.view me = some (users.inj u) := by
          cases hl : s.lock with
          | none => rw [Slot.view_of_unlocked hl, hc]
          | some l =>
              obtain ⟨j, v⟩ := l
              by_cases hj : j = me
              · subst hj
                obtain ⟨x, hx, -⟩ := h.held hs hl
                rw [hnone] at hx
                cases hx
              · rw [Slot.view_of_other hl hj, hc]
        refine h.write_pool hnone (fun a ha => ?_) hdb hs hview (by simpa using hid)
        obtain ⟨z, rfl, hz⟩ := users.sel_iff.mp ha
        rw [users.set_inj]
        exact hmake _ _ (hmakes z (by simpa using hz))
  | _ => exact World.answer_quiet (by trivial) hans ▸ h

/-- An operation of another call leaves what a call has in the table. -/
theorem answer_apart (hpermits : R.Permits call log o)
    (hans : World.answer c me o ch w = some (w', r)) (hk : k ≠ me) : w.db.Apart k w'.db := by
  have hnone : Effect me w.db w.db := .none
  have hsame : w.db.Apart k w.db := hnone.apart hk
  cases o with
  | sql q =>
      obtain ⟨out, -, hdb, -⟩ := World.answer_sql hans
      exact (SqlOp.Part.effect hpermits.part hdb).apart hk
  | update id dto =>
      rcases answer_update_found hans with ⟨rfl, -⟩ | ⟨u, copy, r', -, -, hdb⟩
      · exact hsame
      · exact SqlOp.apart_write_pool hdb hk
  | _ => exact World.answer_quiet (by trivial) hans ▸ hsame

variable {rows : List Record} {cfg cfg' : Config Op Op.Reply World Call α} {code : Call → Handler α}

/-- **Every step a call is permitted keeps every call's deeds right.** -/
theorem accounts_step (h : ∀ k, cfg.shared.db.Accounts (HasMade R cfg k) k (deeds (cfg.log k)))
    (hstep : Policy.Step R.policy (service c code) cfg cfg') (k : Nat) :
    cfg'.shared.db.Accounts (HasMade R cfg' k) k (deeds (cfg'.log k)) := by
  cases hstep with
  | spawn hlater hshared hlog =>
      rw [hshared, hlog]
      exact (h k).mono fun _ _ => HasMade.later hlater
  | env e hlater hshared hlog =>
      have hdb : cfg'.shared.db = cfg.shared.db := hshared ▸ World.expire_db e _
      rw [hdb, hlog]
      exact (h k).mono fun _ _ => HasMade.later hlater
  | @step i call o ch r hlater hi hcall hpermits hans hlog hother =>
      have hans' : World.answer c i o ch cfg.shared = some (cfg'.shared, r) := hans
      have hpermits' : R.Permits call (cfg.log i) o := hpermits
      have hkept : cfg.shared.db.Accounts (HasMade R cfg' k) k (deeds (cfg.log k)) :=
        (h k).mono fun _ _ => HasMade.later hlater
      by_cases hk : k = i
      · subst hk
        rw [hlog]
        exact answer_accounts hpermits' hans' hkept fun a v hm =>
          ⟨call, cfg.log k, hlater.call hcall, hlater.log k, hm⟩
      · rw [hother k hk]
        exact hkept.apart (answer_apart hpermits' hans' hk)

/-- **After every run the deeds of every call account for what it has in the table.** -/
theorem run_accounts (hcode : ∀ call, R.policy.protocol.Follows call ((service c code).code call))
    {evs : List (Basis.Event Choice Call Expiry)}
    (hrun : (service c code).run ⟨World.of rows, []⟩ evs = some cfg) (k : Nat) :
    cfg.shared.db.Accounts (HasMade R cfg k) k (deeds (cfg.log k)) :=
  (Policy.run_upheld hcode
    (J := fun cfg => ∀ k, cfg.shared.db.Accounts (HasMade R cfg k) k (deeds (cfg.log k)))
    (fun _ => Table.Accounts.start rows) (fun h hstep => accounts_step h hstep) hrun).2 k

end Steps

end Authnz
