/-
What `revoke_all_for_user` leaves when single deletions fail.

The loop logs a failed deletion and goes on, so a failure spares its own session and
no other, wherever in the list it stands.  What is left is therefore a filter of the
rows from before: it does not depend on the order of the listing, and a second sweep
that goes through leaves none of the user's sessions.
-/
import Mathlib.Data.List.Nodup
import Authnz.Proofs.Outages

namespace Authnz

open Basis

/-- The listing names all sessions of the user and no others, in any order, and exactly the
deletions of these fail. -/
structure Skipping (fails : Uuid → Bool) (w : World) (o : Op) (ch : Choice) : Prop where
  list : ∀ u, o = .list_sessions (some u) →
    ∃ l, ch = .sessions l ∧ l.Perm ((w.rows sessions).filter fun s => s.sub == u)
  delete : ∀ id, o = .sql (.write .pool (sessions.sel fun s => s.id == id) Relation.del) →
    (ch = .fail ↔ fails id = true)

/-- The records a sweep of the sessions of `sub` leaves when these deletions fail. -/
def Spared (fails : Uuid → Bool) (sub : Uuid) : Record → Bool
  | .session s => s.sub != sub || fails s.id
  | _ => true

section Sweeping

variable {c : Crates} {me : Nat} {fails : Uuid → Bool} {sub : Uuid} {w w' : World}

/-- With a primary key, deleting by the ids of the user's sessions deletes those rows alone. -/
theorem rewrite_spared (hids : ((w.rows sessions).map (·.id)).Nodup) {l : List Session}
    (hl : ∀ s, s ∈ l ↔ s ∈ w.rows sessions ∧ s.sub = sub) {x : Option Record} (hx : x ∈ w.places) :
    Desk.rewrite (sessions.sel (listed (l.filter fun s => !fails s.id))) Relation.del x =
      x.filter (Spared fails sub) := by
  cases x with
  | none => rfl
  | some r =>
      cases hr : sessions.prj r with
      | none =>
          rw [rewrite_other hr]
          cases r with
          | session s => cases hr
          | _ => rfl
      | some s =>
          obtain rfl := sessions.inj_of_prj hr
          have hs : s ∈ w.rows sessions := mem_rows_of_place hx
          have hlisted : listed (l.filter fun s => !fails s.id) s = true ↔
              s.sub = sub ∧ fails s.id = false := by
            unfold listed
            rw [List.any_eq_true]
            constructor
            · intro hpost
              obtain ⟨y, hy, hid⟩ := hpost
              obtain ⟨hyl, hyf⟩ := List.mem_filter.mp hy
              obtain ⟨hyw, hysub⟩ := (hl y).mp hyl
              obtain rfl : y = s := List.inj_on_of_nodup_map hids hyw hs (by simpa using hid)
              exact ⟨hysub, by simpa using hyf⟩
            · intro hpost
              obtain ⟨hsub, hf⟩ := hpost
              exact ⟨s, List.mem_filter.mpr ⟨(hl s).mpr ⟨hs, hsub⟩, by simp [hf]⟩, by simp⟩
          change _ = (some (Record.session s)).filter (Spared fails sub)
          by_cases hgone : s.sub = sub ∧ fails s.id = false
          · rw [Desk.rewrite_hit (by simpa using hlisted.mpr hgone)]
            simp [Option.filter, Spared, hgone, Relation.del]
          · have hkept : Spared fails sub (.session s) = true := by
              simpa [Spared, Classical.or_iff_not_imp_left] using hgone
            rw [Desk.rewrite_miss]
            · exact (Option.filter_eq_some_iff.mpr ⟨rfl, hkept⟩).symm
            · refine (sessions.sel_inj _ s).trans (Bool.eq_false_iff.mpr fun hc => ?_)
              exact hgone (hlisted.mp hc)

theorem mem_of_perm {l : List Session}
    (h : l.Perm ((w.rows sessions).filter fun s => s.sub == sub)) (s : Session) :
    s ∈ l ↔ s ∈ w.rows sessions ∧ s.sub = sub := by
  rw [h.mem_iff, List.mem_filter, beq_iff_eq]

/-- The loop over any listing of the user's sessions, in any order. -/
theorem delete_each_spares (hset : w.Settled me) (hids : ((w.rows sessions).map (·.id)).Nodup)
    {l : List Session} (hl : l.Perm ((w.rows sessions).filter fun s => s.sub == sub)) :
    Ends c me (Skipping fails) (SessionService.delete_each l) w fun w' _ =>
      w'.places = w.places.map (Option.filter (Spared fails sub)) ∧
        w'.Settled me ∧ w' = { w with db := w'.db } := by
  refine ends_mono (delete_each_failing (fun _ _ _ hch => hch.delete _ rfl) l hset) ?_
  intro w' _ hpost
  obtain ⟨hplaces, hset', hw'⟩ := hpost
  refine ⟨hplaces.trans (List.map_congr_left fun x hx => ?_), hset', hw'⟩
  exact rewrite_spared hids (mem_of_perm hl) hx

theorem revoke_all_spares (hset : w.Settled me) (hids : ((w.rows sessions).map (·.id)).Nodup) :
    EndsE c me (Skipping fails) (SessionService.revoke_all_for_user sub) w
      (fun w' _ => w'.places = w.places.map (Option.filter (Spared fails sub)) ∧
        w'.Settled me ∧ w' = { w with db := w'.db })
      (fun _ _ => False) := by
  refine endsE_bind (endsE_list (fun l hch _ => ?_) fun e hch => ?_)
  · obtain ⟨_, heq, hl⟩ := hch.list sub rfl
    cases heq
    exact endsE_lift (delete_each_spares hset hids hl)
  · obtain ⟨_, heq, -⟩ := hch.list sub rfl
    cases heq

/-! ### The sweep comes to an end -/

/-- The choice `Skipping` leaves at a deletion. -/
theorem skipping_deletes (fails : Uuid → Bool) (w : World) (id : Uuid) :
    Skipping fails w (.sql (.write .pool (sessions.sel fun s => s.id == id) Relation.del))
      (if fails id then .fail else .go) := by
  refine ⟨fun u h => (nomatch h), fun id' h => ?_⟩
  injection h with h
  injection h with _ hsel _
  -- the clauses agree on a session with the first id, so the ids are one
  have hrow := congrFun hsel (.session ⟨id, 0, "", "", "", 0⟩)
  have hid : id = id' := by simpa [Relation.sel, sessions] using hrow
  rw [← hid]
  by_cases hf : fails id = true
  · exact iff_of_true (if_pos hf) hf
  · exact iff_of_false (by rw [if_neg hf]; simp) hf

/-- The statement of the loop. -/
inductive SweepOp : Op → Prop
  | delete (id : Uuid) :
      SweepOp (.sql (.write .pool (sessions.sel fun s => s.id == id) Relation.del))

theorem delete_each_sweeps (l : List Session) : (SessionService.delete_each l).Uses SweepOp := by
  induction l with
  | nil => trivial
  | cons x rest ih =>
      refine Prog.uses_bind (Prog.uses_bindE (uses_attempt (uses_delete (.delete x.id))) fun rows =>
        ?_) fun _ => ih
      cases rows <;> trivial

/-- With a primary key, the user's sessions are a listing of them. -/
theorem lists_own (hids : ((w.rows sessions).map (·.id)).Nodup) :
    w.lists (some sub) ((w.rows sessions).filter fun s => s.sub == sub) = true := by
  refine List.all_eq_true.mpr fun s hs => ?_
  obtain ⟨hmem, hsub⟩ := List.mem_filter.mp hs
  refine Bool.and_eq_true_iff.mpr ⟨hsub, List.all_eq_true.mpr fun t ht => ?_⟩
  by_cases hid : t.id = s.id
  · obtain rfl := List.inj_on_of_nodup_map hids ht hmem hid
    simp
  · simp [hid]

/-- Where nobody else holds a row, the sweep comes to an end. -/
theorem revoke_all_goes (h : w.db.Undisturbed me) (hids : ((w.rows sessions).map (·.id)).Nodup)
    (sub : Uuid) : ∃ w', Prog.Exec (World.answer c) me (Skipping fails)
      (SessionService.revoke_all_for_user sub).run w (.ok ()) w' := by
  generalize hl : (w.rows sessions).filter (fun s => s.sub == sub) = l
  have hlists : w.lists (some sub) l = true := hl ▸ lists_own hids
  have hskips : Skipping fails w (.list_sessions (some sub)) (.sessions l) := by
    refine ⟨fun u hu => ?_, fun id hid => nomatch hid⟩
    cases hu
    exact ⟨l, rfl, .of_eq hl.symm⟩
  have hlisted : Prog.Exec (World.answer c) me (Skipping fails)
      (attempt AuthError.from (SessionRepo.list sub)).run w (.ok l) w := by
    refine Prog.exec_bind.mpr ⟨.ok l, w, Prog.exec_op.mpr ⟨_, hskips, ?_⟩, .ret _ _⟩
    exact if_pos hlists
  obtain ⟨u, w', hrun⟩ : ∃ u w', Prog.Exec (World.answer c) me (Skipping fails)
      (SessionService.delete_each l) w u w' := by
    refine Prog.exists_exec (I := fun w : World => w.db.Undisturbed me) (fun w o ho hw => ?_)
      (delete_each_sweeps l) h
    obtain ⟨id⟩ := ho
    have hout : ∃ out, World.outcome (if fails id then .fail else .go) = some out := by
      by_cases hf : fails id = true
      · exact ⟨_, by rw [if_pos hf]; rfl⟩
      · exact ⟨_, by rw [if_neg hf]; rfl⟩
    obtain ⟨out, hout⟩ := hout
    obtain ⟨w', r, hans, hw'⟩ := answer_sql_undisturbed (c := c) hw _ hout
    exact ⟨_, w', r, skipping_deletes fails w id, hans, hw'⟩
  exact ⟨w', Prog.exec_bindE.mpr (.inl ⟨l, w, hlisted,
    Prog.exec_bind.mpr ⟨u, w', hrun, .ret _ _⟩⟩)⟩

end Sweeping

/-- **A bulk revocation skips exactly the failing rows.** Whatever deletions fail, what is left is
the records from before but for the user's sessions whose deletion worked; no order of the listing
makes a difference, and a second sweep without failures leaves none of the user's sessions. -/
theorem revocation_skips_failing (c : Crates) (me : Nat) (fails : Uuid → Bool) (sub : Uuid)
    (w : World) (hset : w.Settled me) (hids : ((w.rows sessions).map (·.id)).Nodup) :
    (∀ r w', Prog.Exec (World.answer c) me (Skipping fails)
        (SessionService.revoke_all_for_user sub).run w r w' →
      r = .ok () ∧ w' = { w with db := w'.db } ∧
      w'.places = w.places.map (Option.filter (Spared fails sub)) ∧
      w'.rows sessions = (w.rows sessions).filter (fun s => s.sub != sub || fails s.id) ∧
      ∀ r₂ w₂, Prog.Exec (World.answer c) me (Skipping fun _ => false)
          (SessionService.revoke_all_for_user sub).run w' r₂ w₂ →
        w₂.rows sessions = (w.rows sessions).filter fun s => s.sub != sub) ∧
    (∀ l : List Session, l.Perm ((w.rows sessions).filter fun s => s.sub == sub) →
      ∀ r w', Prog.Exec (World.answer c) me (Skipping fails) (SessionService.delete_each l)
        w r w' → w'.places = w.places.map (Option.filter (Spared fails sub))) ∧
    (w.db.Undisturbed me → ∃ w', Prog.Exec (World.answer c) me (Skipping fails)
      (SessionService.revoke_all_for_user sub).run w (.ok ()) w') := by
  have hrows : ∀ {fails : Uuid → Bool} {w w' : World},
      w'.places = w.places.map (Option.filter (Spared fails sub)) →
      w'.rows sessions = (w.rows sessions).filter fun s => s.sub != sub || fails s.id :=
    fun hplaces => rows_of_filter (fun _ => rfl) hplaces
  refine ⟨fun r w' hrun => ?_, fun l hl r w' hrun => ?_, fun hfree => ?_⟩
  · have hend := revoke_all_spares hset hids r w' hrun
    cases r with
    | error e => exact hend.elim
    | ok u =>
        obtain ⟨hplaces, hset', hw'⟩ := hend
        have hleft := hrows hplaces
        refine ⟨rfl, hw', hplaces, hleft, fun r₂ w₂ hrun₂ => ?_⟩
        have hids' : ((w'.rows sessions).map (·.id)).Nodup := by
          rw [hleft]
          exact hids.sublist (List.filter_sublist.map _)
        have hend₂ := revoke_all_spares hset' hids' r₂ w₂ hrun₂
        cases r₂ with
        | error e => exact hend₂.elim
        | ok u =>
            rw [hrows hend₂.1, hleft, List.filter_filter]
            refine List.filter_congr fun s _ => ?_
            cases s.sub != sub <;> simp
  · exact (delete_each_spares hset hids hl r w' hrun).1
  · exact revoke_all_goes hfree hids sub

/-- Two sessions of user 7 and one of user 8. -/
def three_sessions : List Record :=
  [.session sample_session, .session { sample_session with id := 2 },
    .session { sample_session with id := 3, sub := 8 }]

/-- The deletion of session 1 fails: it stays, and so does the session of user 8. -/
theorem revocation_skips_failing_for_alice : ∃ w',
    Prog.Exec (World.answer sample_crates) 0 (Skipping fun id => id == 1)
      (SessionService.revoke_all_for_user 7).run (World.of three_sessions) (.ok ()) w' ∧
    w'.rows sessions = [sample_session, { sample_session with id := 3, sub := 8 }] := by
  have hids : (((World.of three_sessions).rows sessions).map (·.id)).Nodup := by decide
  obtain ⟨hskips, -, hgoes⟩ := revocation_skips_failing sample_crates 0 (fun id => id == 1) 7
    (World.of three_sessions) (settled_of 0 three_sessions) hids
  obtain ⟨w', hrun⟩ := hgoes (undisturbed_of three_sessions)
  exact ⟨w', hrun, (hskips _ w' hrun).2.2.2.1⟩

end Authnz
