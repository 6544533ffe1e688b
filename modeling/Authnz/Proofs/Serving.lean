/-
Walking through a request that has the service to itself.

`Ends` says what every run of a handler from a given state ends in, whatever the
scheduler decides within `admits`.  The rules follow the text of the handlers: one
for each way of putting statements together, one for each kind of statement.  The
database enters through the desk of the one caller.
-/
import Authnz.Basis.Alone
import Authnz.Model.Handlers

namespace Authnz

open Basis

/-- The rows of a table, as caller `me` sees them. -/
def World.sees {α : Type} (me : Nat) (T : Relation α) (w : World) : List α :=
  (w.db.desk me).rows.filterMap T.prj

section Rules

variable (c : Crates) (me : Nat) (admits : World → Op → Choice → Prop)

/-- Every run of the handler from `w` ends where `Q` holds. -/
def Ends {α : Type} (p : Handler α) (w : World) (Q : World → α → Prop) : Prop :=
  Prog.Always (World.answer c) me admits p w Q

/-- The same for a service function: `Q` where it returns, `E` where it fails. -/
def EndsE {ε α : Type} (p : Service ε α) (w : World) (Q : World → α → Prop)
    (E : World → ε → Prop) : Prop :=
  Ends c me admits p.run w fun w' r => match r with
    | .ok a => Q w' a
    | .error e => E w' e

variable {c me admits} {α β γ ε ε' : Type} {w : World}

theorem ends_ret {a : α} {Q : World → α → Prop} (h : Q w a) :
    Ends c me admits (pure a : Handler α) w Q := Prog.always_ret h

theorem ends_bind {p : Handler α} {g : α → Handler β} {Q : World → β → Prop}
    (h : Ends c me admits p w fun w' a => Ends c me admits (g a) w' Q) :
    Ends c me admits (p >>= g) w Q := Prog.always_bind h

theorem ends_mono {p : Handler α} {Q Q' : World → α → Prop} (h : Ends c me admits p w Q)
    (hQ : ∀ w' a, Q w' a → Q' w' a) : Ends c me admits p w Q' := Prog.always_mono h hQ

/-- What holds of every end, and what holds of every end besides. -/
theorem ends_and {p : Handler α} {Q Q' : World → α → Prop} (h : Ends c me admits p w Q)
    (h' : Ends c me admits p w Q') : Ends c me admits p w fun w' a => Q w' a ∧ Q' w' a :=
  fun a w' hrun => ⟨h a w' hrun, h' a w' hrun⟩

theorem ends_ask {o : Op} {Q : World → o.Reply → Prop}
    (h : ∀ ch w' r, admits w o ch → World.answer c me o ch w = some (w', r) → Q w' r) :
    Ends c me admits (ask o) w Q := Prog.always_op h

/-- A handler that runs a service function and looks at how it ended. -/
theorem ends_run {p : Service ε α} {g : Except ε α → Handler β} {Q : World → β → Prop}
    (h : EndsE c me admits p w (fun w' a => Ends c me admits (g (.ok a)) w' Q)
      fun w' e => Ends c me admits (g (.error e)) w' Q) :
    Ends c me admits (p.run >>= g) w Q := by
  refine ends_bind (ends_mono h ?_)
  intro w' r hr
  cases r with
  | ok a => exact hr
  | error e => exact hr

theorem endsE_ret {a : α} {Q : World → α → Prop} {E : World → ε → Prop} (h : Q w a) :
    EndsE c me admits (pure a : Service ε α) w Q E := ends_ret h

theorem endsE_throw {e : ε} {Q : World → α → Prop} {E : World → ε → Prop} (h : E w e) :
    EndsE c me admits (throw e : Service ε α) w Q E := ends_ret h

theorem endsE_bind {p : Service ε α} {g : α → Service ε β} {Q : World → β → Prop}
    {E : World → ε → Prop}
    (h : EndsE c me admits p w (fun w' a => EndsE c me admits (g a) w' Q E) E) :
    EndsE c me admits (p >>= g) w Q E := by
  refine ends_bind (ends_mono h ?_)
  intro w' r hr
  cases r with
  | ok a => exact hr
  | error e => exact ends_ret hr

theorem endsE_mono {p : Service ε α} {Q Q' : World → α → Prop} {E E' : World → ε → Prop}
    (h : EndsE c me admits p w Q E) (hQ : ∀ w' a, Q w' a → Q' w' a)
    (hE : ∀ w' e, E w' e → E' w' e) : EndsE c me admits p w Q' E' := by
  refine ends_mono h ?_
  intro w' r hr
  cases r with
  | ok a => exact hQ _ _ hr
  | error e => exact hE _ _ hr

theorem endsE_lift {p : Handler α} {Q : World → α → Prop} {E : World → ε → Prop}
    (h : Ends c me admits p w Q) : EndsE c me admits (liftM p : Service ε α) w Q E :=
  ends_bind (ends_mono h fun _ _ hQ => ends_ret hQ)

theorem endsE_attempt {err : ε' → ε} {p : Handler (Except ε' α)} {Q : World → α → Prop}
    {E : World → ε → Prop}
    (h : Ends c me admits p w fun w' r => match r with
      | .ok a => Q w' a
      | .error e => E w' (err e)) : EndsE c me admits (attempt err p) w Q E := by
  refine ends_bind (ends_mono h ?_)
  intro w' r hr
  cases r with
  | ok a => exact ends_ret hr
  | error e => exact ends_ret hr

/-- What holds a transaction gives it back in the end. -/
theorem endsE_in_tx {body : Service ε α} {Q : World → α → Prop} {E : World → ε → Prop}
    (h : EndsE c me admits body w
      (fun w' a => ∀ w'', w'' = { w' with db := w''.db } →
        w''.db.desk me = (w'.db.desk me).rollback → Q w'' a)
      (fun w' e => ∀ w'', w'' = { w' with db := w''.db } →
        w''.db.desk me = (w'.db.desk me).rollback → E w'' e)) :
    EndsE c me admits (in_tx body) w Q E := by
  refine ends_bind (ends_mono h ?_)
  intro w' r hr
  refine ends_bind (ends_ask ?_)
  intro ch w'' u _ hans
  obtain ⟨out, -, hdb, hw⟩ := World.answer_sql hans
  have hdesk := SqlOp.alone_rollback hdb
  cases r with
  | ok a => exact ends_ret (hr w'' hw hdesk)
  | error e => exact ends_ret (hr w'' hw hdesk)

/-- An operation beside the database. -/
theorem ends_quiet {o : Op} {Q : World → o.Reply → Prop} (ho : World.Quiet o)
    (hQ : ∀ w' r, w'.db = w.db → Q w' r) : Ends c me admits (ask o) w Q :=
  ends_ask fun _ w' r _ hans => hQ w' r (World.answer_quiet ho hans)

theorem endsE_retrieve {id : Uuid} {err : ApiError → ε} {Q : World → UserResponse → Prop}
    {E : World → ε → Prop} (hQ : ∀ w' u, w'.db = w.db → u.id = id → Q w' u)
    (hE : ∀ w' e, w'.db = w.db → E w' e) :
    EndsE c me admits (attempt err (ask (.retrieve id))) w Q E := by
  refine endsE_attempt (ends_ask ?_)
  intro ch w' r _ hans
  have hdb : w'.db = w.db := World.answer_quiet (show World.Quiet (.retrieve id) from trivial) hans
  cases r with
  | error e => exact hE w' _ hdb
  | ok u => exact hQ w' u hdb ((World.answer_retrieve hans).2 u rfl)

/-- A service function all of whose ends are alike. -/
theorem ends_of_endsE {p : Service ε α} {I : World → Prop}
    (h : EndsE c me admits p w (fun w' _ => I w') fun w' _ => I w') :
    Ends c me admits p.run w fun w' _ => I w' := by
  refine ends_mono h ?_
  intro w' r hr
  cases r <;> exact hr

/-! ### What a whole handler keeps -/

/-- From a state where `I` holds, every run of the handler ends in one. -/
def Keeps (c : Crates) (me : Nat) (admits : World → Op → Choice → Prop) (I : World → Prop)
    (p : Handler α) : Prop := ∀ w, I w → Ends c me admits p w fun w' _ => I w'

section Keeps

variable {I : World → Prop}

theorem keeps_ret (a : α) : Keeps c me admits I (Prog.ret a) := fun _ hw => ends_ret hw

theorem keeps_bind {p : Handler α} {g : α → Handler β} (hp : Keeps c me admits I p)
    (hg : ∀ a, Keeps c me admits I (g a)) : Keeps c me admits I (p >>= g) :=
  fun w hw => ends_bind (ends_mono (hp w hw) fun w' a hw' => hg a w' hw')

theorem keeps_bindE {p : Service ε α} {g : α → Service ε β} (hp : Keeps c me admits I p.run)
    (hg : ∀ a, Keeps c me admits I (g a).run) : Keeps c me admits I (p >>= g).run := by
  refine keeps_bind hp fun r => ?_
  cases r with
  | ok a => exact hg a
  | error e => exact keeps_ret _

/-- What each of the operations keeps, the handler keeps. -/
theorem keeps_of_uses {P : Op → Prop} {p : Handler α} (hp : p.Uses P)
    (hop : ∀ w o ch w' r, P o → admits w o ch → World.answer c me o ch w = some (w', r) →
      I w → I w') : Keeps c me admits I p := fun _ hw _ _ hrun => hrun.invariant hp hop hw

end Keeps

/-! ### Statements -/

theorem outcome_fault {ch : Choice} (h : World.outcome ch = some .fault) : ch = .fail := by
  cases ch <;> cases h
  rfl

variable {T : Relation α} {q : α → Bool} {err : DbError → ε}

theorem sees_filter : ((w.db.desk me).rows.filter (T.sel q)).filterMap T.prj =
    (w.sees me T).filter q := by
  unfold World.sees
  induction (w.db.desk me).rows with
  | nil => rfl
  | cons r rest ih =>
      cases hr : T.prj r with
      | none => simp [Relation.sel, hr, ← ih]
      | some a => by_cases hq : q a = true <;> simp [Relation.sel, hr, hq, ← ih]

theorem endsE_select {Q : World → List α → Prop} {E : World → ε → Prop}
    (hQ : Q w ((w.sees me T).filter q))
    (hE : ∀ e, admits w (.sql (.select (T.sel q))) .fail → E w (err e)) :
    EndsE c me admits (attempt err (select_from T q)) w Q E := by
  refine endsE_attempt (ends_bind (ends_ask ?_))
  intro ch w' r hch hans
  obtain ⟨out, hout, hdb, hw⟩ := World.answer_sql hans
  obtain ⟨ht, hr⟩ := SqlOp.alone_select hdb
  rw [ht] at hw
  subst hw
  rcases hr with rfl | ⟨rfl, rfl⟩
  · refine ends_ret ?_
    change Q w (((w.db.desk me).rows.filter (T.sel q)).filterMap T.prj)
    rw [sees_filter]
    exact hQ
  · obtain rfl := outcome_fault hout
    exact ends_ret (hE _ hch)

/-- An `UPDATE` or `DELETE`, by what it makes of the desk and the rows it returns. -/
theorem endsE_write {ex : Executor} {f : Record → Option Record} {Q : World → List α → Prop}
    {E : World → ε → Prop}
    (hQ : ∀ w', w' = { w with db := w'.db } →
      w'.db.desk me = ((w.db.desk me).write (T.sel q) f).settle ex →
      Q w' ((((w.db.desk me).rows.filter (T.sel q)).map fun r => (f r).getD r).filterMap T.prj))
    (hE : ∀ e, admits w (.sql (.write ex (T.sel q) f)) .fail → E w (err e)) :
    EndsE c me admits (attempt err do
        let r ← ask (.sql (.write ex (T.sel q) f))
        return T.decode r) w Q E := by
  refine endsE_attempt (ends_bind (ends_ask ?_))
  intro ch w' r hch hans
  obtain ⟨out, hout, hdb, hw⟩ := World.answer_sql hans
  rcases SqlOp.alone_write hdb with ⟨hdesk, rfl⟩ | ⟨rfl, ht, rfl⟩
  · exact ends_ret (hQ w' hw hdesk)
  · rw [ht] at hw
    subst hw
    obtain rfl := outcome_fault hout
    exact ends_ret (hE _ hch)

theorem endsE_update {ex : Executor} {g : α → α} {Q : World → List α → Prop} {E : World → ε → Prop}
    (hQ : ∀ w', w' = { w with db := w'.db } →
      w'.db.desk me = ((w.db.desk me).write (T.sel q) (T.set g)).settle ex →
      Q w' (((w.sees me T).filter q).map g))
    (hE : ∀ e, admits w (.sql (.write ex (T.sel q) (T.set g))) .fail → E w (err e)) :
    EndsE c me admits (attempt err (update_set T ex q g)) w Q E := by
  refine endsE_write (fun w' hw hdesk => ?_) hE
  have hrows : (((w.db.desk me).rows.filter (T.sel q)).map fun r => (T.set g r).getD r).filterMap
      T.prj = ((w.sees me T).filter q).map g := by
    rw [← sees_filter, List.filterMap_map, List.map_filterMap]
    refine List.filterMap_congr fun r _ => ?_
    cases hr : T.prj r with
    | none => simp [Relation.set, hr]
    | some a => simp [Relation.set, hr, T.prj_inj]
  rw [hrows]
  exact hQ w' hw hdesk

theorem endsE_delete {ex : Executor} {Q : World → List α → Prop} {E : World → ε → Prop}
    (hQ : ∀ w', w' = { w with db := w'.db } →
      w'.db.desk me = ((w.db.desk me).write (T.sel q) Relation.del).settle ex →
      Q w' ((w.sees me T).filter q))
    (hE : ∀ e, admits w (.sql (.write ex (T.sel q) Relation.del)) .fail → E w (err e)) :
    EndsE c me admits (attempt err (delete_from T ex q)) w Q E := by
  refine endsE_write (fun w' hw hdesk => ?_) hE
  have hrows : (((w.db.desk me).rows.filter (T.sel q)).map fun r =>
      (Relation.del r).getD r).filterMap T.prj = (w.sees me T).filter q := by
    rw [← sees_filter]
    simp [Relation.del]
  rw [hrows]
  exact hQ w' hw hdesk

theorem endsE_insert {ex : Executor} {mk : Uuid → α} {Q : World → α → Prop} {E : World → ε → Prop}
    (hQ : ∀ key w', w' = { w with db := w'.db } →
      (∀ a ∈ w.sees me T, T.clash (mk key) a = false) →
      w'.db.desk me = ((w.db.desk me).insert (T.inj (mk key))).settle ex → Q w' (mk key))
    (hdup : ∀ key, (∃ a ∈ w.sees me T, T.clash (mk key) a = true) → E w (err .unique_violation))
    (hE : admits w (.sql (.insert ex (fun n => T.inj (mk n)) T.clashes)) .fail → E w (err .other)) :
    EndsE c me admits (attempt err (insert_into T ex mk)) w Q E := by
  refine endsE_attempt (ends_bind (ends_ask ?_))
  intro ch w' r hch hans
  obtain ⟨out, hout, hdb, hw⟩ := World.answer_sql hans
  rcases SqlOp.alone_insert hdb with ⟨key, -, hfree, hdesk, rfl⟩ | ⟨key, -, ⟨a, ha, hc⟩, ht, rfl⟩ |
    ⟨rfl, ht, rfl⟩
  · refine ends_ret ?_
    simp only [Relation.decodeOne, T.prj_inj]
    refine hQ key w' hw (fun a ha => ?_) hdesk
    obtain ⟨r, hr, hprj⟩ := List.mem_filterMap.mp ha
    have := hfree r hr
    rwa [T.inj_of_prj hprj, T.clashes_inj] at this
  · rw [ht] at hw
    subst hw
    refine ends_ret (hdup key ?_)
    cases hprj : T.prj a with
    | none => simp [Relation.clashes, hprj] at hc
    | some b =>
        refine ⟨b, List.mem_filterMap.mpr ⟨a, ha, hprj⟩, ?_⟩
        rwa [T.inj_of_prj hprj, T.clashes_inj] at hc
  · rw [ht] at hw
    subst hw
    obtain rfl := outcome_fault hout
    exact ends_ret (hE hch)

/-- A lookup that is bound to fail does. -/
theorem endsE_select_fails {Q : World → List α → Prop} {E : World → ε → Prop}
    (hfail : ∀ ch, admits w (.sql (.select (T.sel q))) ch → ch = .fail) (hE : ∀ e, E w (err e)) :
    EndsE c me admits (attempt err (select_from T q)) w Q E := by
  refine endsE_attempt (ends_bind (ends_ask ?_))
  intro ch w' r hch hans
  obtain rfl := hfail ch hch
  cases hans
  exact ends_ret (hE _)

/-- And so does an `UPDATE` or a `DELETE`, without effect. -/
theorem endsE_write_fails {ex : Executor} {f : Record → Option Record} {Q : World → List α → Prop}
    {E : World → ε → Prop}
    (hfail : ∀ ch, admits w (.sql (.write ex (T.sel q) f)) ch → ch = .fail)
    (hE : ∀ e, E w (err e)) :
    EndsE c me admits (attempt err do
        let r ← ask (.sql (.write ex (T.sel q) f))
        return T.decode r) w Q E := by
  refine endsE_attempt (ends_bind (ends_ask ?_))
  intro ch w' r hch hans
  obtain rfl := hfail ch hch
  cases hans
  exact ends_ret (hE _)

theorem endsE_begin {Q : World → Unit → Prop} {E : World → ε → Prop} (hQ : Q w ())
    (hE : ∀ e, admits w (.sql .begin) .fail → E w (err e)) :
    EndsE c me admits (attempt err begin_tx) w Q E := by
  refine endsE_attempt (ends_ask ?_)
  intro ch w' r hch hans
  obtain ⟨out, hout, hdb, hw⟩ := World.answer_sql hans
  obtain ⟨ht, hr⟩ := SqlOp.alone_begin hdb
  rw [ht] at hw
  subst hw
  rcases hr with rfl | ⟨rfl, rfl⟩
  · exact hQ
  · obtain rfl := outcome_fault hout
    exact hE _ hch

theorem endsE_commit {Q : World → Unit → Prop} {E : World → ε → Prop}
    (hQ : ∀ w', w' = { w with db := w'.db } → w'.db.desk me = (w.db.desk me).commit → Q w' ())
    (hE : ∀ w' e, w' = { w with db := w'.db } → w'.db.desk me = (w.db.desk me).rollback →
      admits w (.sql .commit) .fail → E w' (err e)) :
    EndsE c me admits (attempt err commit_tx) w Q E := by
  refine endsE_attempt (ends_ask ?_)
  intro ch w' r hch hans
  obtain ⟨out, hout, hdb, hw⟩ := World.answer_sql hans
  rcases SqlOp.alone_commit hdb with ⟨hdesk, rfl⟩ | ⟨rfl, hdesk, rfl⟩
  · exact hQ w' hw hdesk
  · obtain rfl := outcome_fault hout
    exact hE w' _ hw hdesk hch

theorem ends_now {Q : World → Time → Prop} (hQ : ∀ t, Q w t) : Ends c me admits utc_now w Q := by
  refine ends_ask ?_
  intro ch w' r hch hans
  obtain ⟨-, rfl⟩ := World.answer_now hans
  exact hQ r

theorem endsE_bcrypt_hash {password : String} {err : Failed → ε} {Q : World → String → Prop}
    {E : World → ε → Prop} (hQ : ∀ salt, Q w (c.bcrypt_hash password salt))
    (hE : admits w (.bcrypt_hash password) .fail → E w (err .failed)) :
    EndsE c me admits (attempt err (ask (.bcrypt_hash password))) w Q E := by
  refine endsE_attempt (ends_ask ?_)
  intro ch w' r hch hans
  cases ch with
  | number salt =>
      cases hans
      exact hQ salt
  | fail =>
      cases hans
      exact hE hch
  | _ => cases hans

/-! ### Runs there are -/

/-- Where nobody else holds a row, a statement is answered, whatever becomes of it. -/
theorem answer_sql_undisturbed (h : w.db.Undisturbed me) (o : SqlOp Record) {ch : Choice}
    {out : Outcome} (hout : World.outcome ch = some out) :
    ∃ w' r, World.answer c me (.sql o) ch w = some (w', r) ∧ w'.db.Undisturbed me := by
  obtain ⟨t', r, hans, ht'⟩ := SqlOp.answer_undisturbed h o out
  refine ⟨{ w with db := t' }, r, ?_, ht'⟩
  change World.answerSql me o ch w = _
  simp only [World.answerSql, hout, hans]
  rfl

theorem undisturbed_of (rows : List Record) : (World.of rows).db.Undisturbed me := by
  intro s hs
  obtain ⟨r, -, rfl⟩ := List.mem_map.mp hs
  rfl

end Rules

end Authnz
