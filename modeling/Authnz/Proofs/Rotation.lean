/-
What a change of password does to the sessions and refresh tokens.

The specifications of the services a rotation consists of, each by what it makes of
the committed rows.  The first sweep ends the sessions its listing names, whichever
these are: `AllListed` is what it takes for it to end them all.
-/
import Authnz.Model.Sample
import Authnz.Proofs.Serving

namespace Authnz

open Basis

/-- The committed rows, each at its place. -/
def World.places (w : World) : List (Option Record) := w.db.map Slot.current

/-- Caller `me` has no transaction open. -/
def World.Settled (me : Nat) (w : World) : Prop := (w.db.desk me).Settled

section Specs

variable {c : Crates} {me : Nat} {admits : World → Op → Choice → Prop} {w : World}

theorem mem_sees {α : Type} {T : Relation α} {a : α} (hset : w.Settled me) :
    a ∈ w.sees me T ↔ ∃ d : Nat, w.places[d]? = some (some (T.inj a)) := by
  unfold World.sees
  rw [List.mem_filterMap]
  constructor
  · rintro ⟨r, hr, hprj⟩
    obtain ⟨d, hd⟩ := Desk.mem_rows.mp hr
    rw [hset] at hd
    exact ⟨d, by rw [← T.inj_of_prj hprj]; exact hd⟩
  · rintro ⟨d, hd⟩
    refine ⟨T.inj a, Desk.mem_rows.mpr ⟨d, ?_⟩, T.prj_inj a⟩
    rw [hset]
    exact hd

/-- A statement on one table leaves the rows of the others. -/
theorem rewrite_other {α : Type} {T : Relation α} {q : α → Bool} {f : Record → Option Record}
    {r : Record} (h : T.prj r = none) : Desk.rewrite (T.sel q) f (some r) = some r :=
  Desk.rewrite_miss (by simp [Relation.sel, h])

theorem places_eq (me : Nat) (w : World) : w.places = (w.db.desk me).committed := rfl

theorem places_length (w : World) : w.places.length = w.db.length := List.length_map _

/-- What a pooled statement leaves behind, place by place. -/
theorem places_of_write {p : Record → Bool} {f : Record → Option Record} {w' : World}
    (hset : w.Settled me) (h : w'.db.desk me = ((w.db.desk me).write p f).settle .pool) :
    w'.Settled me ∧ w'.places = w.places.map (Desk.rewrite p f) := by
  rw [World.Settled, places_eq me, h, places_eq me, ← hset]
  exact ⟨rfl, rfl⟩

theorem places_of_insert {r : Record} {w' : World} (hset : w.Settled me)
    (h : w'.db.desk me = ((w.db.desk me).insert r).settle .pool) :
    w'.Settled me ∧ w'.places = w.places ++ [some r] := by
  rw [World.Settled, places_eq me, h, places_eq me, ← hset]
  exact ⟨rfl, rfl⟩

/-- A successful `change_password` has replaced the hash it checked; a failed one did nothing. -/
theorem change_password_ends (hset : w.Settled me) (cmd : ChangePasswordCmd) :
    EndsE c me admits (UserService.change_password c cmd) w
      (fun w' _ => (∃ u us salt, (w.sees me users).filter (UserIs cmd.user_id) = u :: us ∧
        c.bcrypt_verify cmd.current_password u.password_hash = some true ∧
        w'.places = w.places.map (Desk.rewrite (users.sel (UserIs cmd.user_id))
          (users.set (·.with_hash (c.bcrypt_hash cmd.new_password salt))))) ∧
        ¬ c.zxcvbn_score cmd.new_password < 3 ∧ w'.Settled me ∧ w' = { w with db := w'.db })
      (fun w' _ => w' = w) := by
  unfold UserService.change_password
  by_cases hscore : c.zxcvbn_score cmd.new_password < 3
  · rw [if_pos hscore]
    exact endsE_throw rfl
  rw [if_neg hscore]
  refine endsE_bind (endsE_bind (endsE_select ?_ fun e _ => rfl))
  cases hrows : (w.sees me users).filter (fun u => u.id == cmd.user_id) with
  | nil =>
      dsimp only
      exact endsE_throw rfl
  | cons u us =>
      dsimp only
      refine endsE_ret ?_
      by_cases hv : c.bcrypt_verify cmd.current_password u.password_hash = some true
      · have htrue : (c.bcrypt_verify cmd.current_password u.password_hash).getD false = true := by
          rw [hv]
          rfl
        simp only [htrue, Bool.not_true, Bool.false_eq_true, if_false]
        refine endsE_bind (endsE_bcrypt_hash (fun salt => ?_) fun _ => rfl)
        refine endsE_bind (endsE_update (fun w' hw hdesk => ?_) fun e _ => rfl)
        obtain ⟨hset', hplaces⟩ := places_of_write hset hdesk
        exact endsE_ret ⟨⟨u, us, salt, hrows, hv, hplaces⟩, hscore, hset', hw⟩
      · have hfalse : (c.bcrypt_verify cmd.current_password u.password_hash).getD false = false := by
          cases hb : c.bcrypt_verify cmd.current_password u.password_hash with
          | none => rfl
          | some b => cases b <;> simp_all
        simp only [hfalse, Bool.not_false, if_true]
        exact endsE_throw rfl

/-- The INSERT of `issue_session`. -/
def session_insert (new : NewSession) : Op :=
  .sql (.insert .pool (fun n => sessions.inj (new.withId n)) sessions.clashes)

/-! ### The sweeps -/

/-- The statements of the two sweeps: deleting one session, revoking the tokens. -/
inductive Revocation : Op → Prop
  | delete (id : Uuid) :
      Revocation (.sql (.write .pool (sessions.sel fun s => s.id == id) Relation.del))
  | tokens (user_id : Uuid) :
      Revocation (.sql (.write .pool (refresh_tokens.sel fun r => r.user_id == user_id)
        (refresh_tokens.set fun r => { r with revoked := some true })))

/-- The session is one of these. -/
def listed (l : List Session) (s : Session) : Bool := l.any fun x => x.id == s.id

/-- The user has no session but these. -/
def AllListed (user_id : Uuid) (l : List Session) (w : World) : Prop :=
  ∀ (d : Nat) (s : Session), w.places[d]? = some (some (.session s)) → s.sub = user_id →
    listed l s = true

theorem listed_filter (l : List Session) (fails : Uuid → Bool) (s : Session) :
    listed (l.filter fun x => !fails x.id) s = (listed l s && !fails s.id) := by
  rw [Bool.eq_iff_iff]
  simp only [listed, List.any_eq_true, List.mem_filter, Bool.and_eq_true, beq_iff_eq]
  constructor
  · rintro ⟨x, ⟨hx, hf⟩, hid⟩
    exact ⟨⟨x, hx, hid⟩, by rwa [hid] at hf⟩
  · rintro ⟨⟨x, hx, hid⟩, hf⟩
    exact ⟨x, ⟨hx, by rwa [hid]⟩, hid⟩

/-- A sweep takes a session exactly if it is listed. -/
theorem rewrite_listed_session (l : List Session) (s : Session) :
    Desk.rewrite (sessions.sel (listed l)) Relation.del (some (.session s)) =
      if listed l s then none else some (.session s) := by
  have hsel : sessions.sel (listed l) (.session s) = listed l s := sessions.sel_inj _ s
  by_cases hl : listed l s = true
  · rw [if_pos hl, Desk.rewrite_hit (by rw [hsel, hl])]
    rfl
  · rw [if_neg hl, Desk.rewrite_miss (by rw [hsel]; simpa using hl)]

theorem rewrite_listed_nil (w : World) :
    w.places.map (Desk.rewrite (sessions.sel (listed [])) Relation.del) = w.places := by
  have hid : Desk.rewrite (sessions.sel (listed [])) Relation.del = id := by
    funext y
    cases y with
    | none => rfl
    | some r =>
        refine Desk.rewrite_miss ?_
        unfold Relation.sel
        cases sessions.prj r <;> rfl
  rw [hid, List.map_id]

theorem rewrite_listed (x : Session) (l : List Session) (y : Option Record) :
    Desk.rewrite (sessions.sel (listed l)) Relation.del
        (Desk.rewrite (sessions.sel fun s => s.id == x.id) Relation.del y) =
      Desk.rewrite (sessions.sel (listed (x :: l))) Relation.del y := by
  cases y with
  | none => rfl
  | some r =>
      cases hr : sessions.prj r with
      | none => rw [rewrite_other hr, rewrite_other hr, rewrite_other hr]
      | some s =>
          obtain rfl := sessions.inj_of_prj hr
          by_cases hid : s.id = x.id
          · rw [Desk.rewrite_hit (by simp [hid]), Desk.rewrite_hit (by simp [listed, hid])]
            rfl
          · rw [Desk.rewrite_miss (by simp [hid])]
            have hne : ¬ x.id = s.id := fun h => hid h.symm
            by_cases hl : listed l s = true
            · rw [Desk.rewrite_hit (by simpa using hl),
                Desk.rewrite_hit (by simpa [listed] using .inr (by simpa [listed] using hl))]
            · rw [Desk.rewrite_miss (by simpa using hl),
                Desk.rewrite_miss (by simpa [listed, hne] using hl)]

/-- The loop deletes exactly the listed sessions whose deletion works, and nothing else. -/
theorem delete_each_failing {fails : Uuid → Bool} (hfail : ∀ (w : World) (id : Uuid) (ch : Choice),
      admits w (.sql (.write .pool (sessions.sel fun s => s.id == id) Relation.del)) ch →
        (ch = .fail ↔ fails id = true)) (l : List Session) :
    ∀ {w : World}, w.Settled me → Ends c me admits (SessionService.delete_each l) w fun w' _ =>
      w'.places = w.places.map (Desk.rewrite (sessions.sel
          (listed (l.filter fun s => !fails s.id))) Relation.del) ∧
        w'.Settled me ∧ w' = { w with db := w'.db } := by
  induction l with
  | nil =>
      intro w hset
      exact ends_ret ⟨(rewrite_listed_nil w).symm, hset, rfl⟩
  | cons x rest ih =>
      intro w hset
      by_cases hx : fails x.id = true
      · have hskip : (x :: rest).filter (fun s => !fails s.id) =
            rest.filter fun s => !fails s.id := List.filter_cons_of_neg (by simp [hx])
        rw [hskip]
        refine ends_run (endsE_bind (endsE_write_fails (fun ch hch => ?_) fun e => ?_))
        · exact (hfail _ _ ch hch).mpr hx
        · exact ih hset
      · have hkeep : (x :: rest).filter (fun s => !fails s.id) =
            x :: rest.filter fun s => !fails s.id := List.filter_cons_of_pos (by simp [hx])
        rw [hkeep]
        have hrest : ∀ w', w' = { w with db := w'.db } →
            w'.db.desk me = ((w.db.desk me).write (sessions.sel fun s => s.id == x.id)
              Relation.del).settle .pool →
            Ends c me admits (SessionService.delete_each rest) w' fun w'' _ =>
              w''.places = w.places.map (Desk.rewrite (sessions.sel
                  (listed (x :: rest.filter fun s => !fails s.id))) Relation.del) ∧
                w''.Settled me ∧ w'' = { w with db := w''.db } := by
          intro w' hw hdesk
          obtain ⟨hset', hplaces⟩ := places_of_write hset hdesk
          refine ends_mono (ih hset') ?_
          intro w'' _ hpost
          obtain ⟨hp, hset'', hw'⟩ := hpost
          refine ⟨?_, hset'', by rw [hw', hw]⟩
          rw [hp, hplaces, List.map_map]
          exact List.map_congr_left fun y _ => rewrite_listed x _ y
        refine ends_run (endsE_bind (endsE_delete (fun w' hw hdesk => ?_) fun e hno =>
          absurd ((hfail _ _ _ hno).mp rfl) hx))
        cases (w.sees me sessions).filter fun s => s.id == x.id with
        | nil => exact endsE_throw (hrest w' hw hdesk)
        | cons y ys => exact endsE_ret (hrest w' hw hdesk)

/-- Where the storage does its part, every listed session is deleted. -/
theorem delete_each_ends (hwork : ∀ w o, Revocation o → ¬ admits w o .fail) (l : List Session)
    (hset : w.Settled me) : Ends c me admits (SessionService.delete_each l) w fun w' _ =>
      w'.places = w.places.map (Desk.rewrite (sessions.sel (listed l)) Relation.del) ∧
        w'.Settled me ∧ w' = { w with db := w'.db } := by
  have hfail : ∀ (w : World) (id : Uuid) (ch : Choice),
      admits w (.sql (.write .pool (sessions.sel fun s => s.id == id) Relation.del)) ch →
        (ch = .fail ↔ (fun _ : Uuid => false) id = true) := by
    intro w id ch hch
    refine iff_of_false (fun hc => ?_) Bool.false_ne_true
    rw [hc] at hch
    exact hwork w _ (.delete id) hch
  have hall : l.filter (fun _ => !false) = l := List.filter_eq_self.mpr fun _ _ => rfl
  have hends := delete_each_failing (c := c) hfail l hset
  rwa [hall] at hends

/-- A listing of sessions, by what it returns. -/
theorem endsE_list {sub : Uuid} {Q : World → List Session → Prop} {E : World → AuthError → Prop}
    (hQ : ∀ l, admits w (.list_sessions (some sub)) (.sessions l) → w.lists (some sub) l = true →
      Q w l)
    (hE : ∀ e, admits w (.list_sessions (some sub)) (.refuse e) → E w (.from e)) :
    EndsE c me admits (attempt AuthError.from (SessionRepo.list sub)) w Q E := by
  refine endsE_attempt (ends_ask fun ch w' r hch hans => ?_)
  obtain ⟨rfl, ⟨l, rfl, hl, rfl⟩ | ⟨e, rfl, rfl⟩⟩ := World.answer_list_sessions hans
  · exact hQ l hch hl
  · exact hE e hch

/-- `revoke_all_for_user` deletes every session its listing names. -/
theorem revoke_all_for_user_ends (hwork : ∀ w o, Revocation o → ¬ admits w o .fail)
    (hset : w.Settled me) (sub : Uuid) {P : List Session → Prop}
    (hlist : ∀ ch, admits w (.list_sessions (some sub)) ch → ∃ l, ch = .sessions l ∧ P l) :
    EndsE c me admits (SessionService.revoke_all_for_user sub) w
      (fun w' _ => ∃ l, P l ∧
        w'.places = w.places.map (Desk.rewrite (sessions.sel (listed l)) Relation.del) ∧
        w'.Settled me ∧ w' = { w with db := w'.db })
      (fun _ _ => False) := by
  refine endsE_bind (endsE_list (fun l hch _ => ?_) fun e hch => ?_)
  · obtain ⟨_, heq, hP⟩ := hlist _ hch
    cases heq
    exact endsE_lift (ends_mono (delete_each_ends hwork l hset) fun w' _ h => ⟨l, hP, h⟩)
  · obtain ⟨_, heq, -⟩ := hlist _ hch
    cases heq

/-- `revoke_all_user_tokens` revokes every refresh token of the user. -/
theorem revoke_all_user_tokens_ends (hwork : ∀ w o, Revocation o → ¬ admits w o .fail)
    (hset : w.Settled me) (user_id : Uuid) :
    EndsE c me admits (JwtService.revoke_all_user_tokens user_id) w
      (fun w' _ => w'.places = w.places.map
          (Desk.rewrite (refresh_tokens.sel fun r => r.user_id == user_id)
            (refresh_tokens.set fun r => { r with revoked := some true })) ∧
        w'.Settled me ∧ w' = { w with db := w'.db })
      (fun _ _ => False) := by
  refine endsE_bind (endsE_update (fun w' hw hdesk => ?_) fun _ hfail =>
    absurd hfail (hwork _ _ (.tokens user_id)))
  obtain ⟨hset', hplaces⟩ := places_of_write hset hdesk
  exact endsE_ret ⟨hplaces, hset', hw⟩

/-- `issue_session` adds one session, of the user it is given and under an id no other session
has. -/
theorem issue_session_adds (hset : w.Settled me) (user : SessionUser) (params : SessionParams) :
    EndsE c me admits (SessionService.issue_session user params) w
      (fun w' id => ∃ s : Session, s.id = id ∧
        (s.sub = user.sub ∧ s.username = user.username ∧ s.email = user.email) ∧
        (∀ x ∈ w.sees me sessions, x.id ≠ id) ∧
        w'.places = w.places ++ [some (.session s)] ∧ w'.Settled me ∧
        w' = { w with db := w'.db })
      (fun w' _ => w' = w) := by
  refine endsE_bind (endsE_lift (ends_now fun t => ?_))
  refine endsE_bind (endsE_insert (fun key w' hw hfree hdesk => ?_) (fun _ _ => rfl) fun _ => rfl)
  obtain ⟨hset', hplaces⟩ := places_of_insert hset hdesk
  refine endsE_ret ⟨_, rfl, ⟨rfl, rfl, rfl⟩, fun x hx => ?_, hplaces, hset', hw⟩
  have hx' := hfree x hx
  exact fun hxid => by simp [sessions, NewSession.withId, hxid] at hx'

/-- `issue_session` adds one session, under an id no other session has. -/
theorem issue_session_ends (hset : w.Settled me) (user : SessionUser) (params : SessionParams) :
    EndsE c me admits (SessionService.issue_session user params) w
      (fun w' id => ∃ s : Session, s.id = id ∧ s.sub = user.sub ∧
        (∀ x ∈ w.sees me sessions, x.id ≠ id) ∧
        w'.places = w.places ++ [some (.session s)] ∧ w'.Settled me ∧
        w' = { w with db := w'.db })
      (fun w' _ => w' = w) :=
  endsE_mono (issue_session_adds hset user params)
    (fun _ _ ⟨s, hid, ⟨hsub, _⟩, hrest⟩ => ⟨s, hid, hsub, hrest⟩) fun _ _ h => h

end Specs

end Authnz
