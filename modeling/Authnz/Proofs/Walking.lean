/-
Walking through the service's programs.

To show that a function keeps to a protocol one follows its text: a lemma for each
form of statement, and for the ways the text puts them together.  A statement that
changes rows is walked through once here, whatever the phases it passes through.
-/
import Authnz.Basis.Effects
import Authnz.Model.Concurrent

namespace Authnz

open Basis

/-- The rows changed, as the table holds them. -/
def marks (acc : List (Nat × Record)) : List (Nat × Option Record) :=
  acc.map fun x => (x.1, some x.2)

theorem not_mem_marks_nil (d : Nat) : ∀ v, (d, v) ∉ marks [] := fun _ h => by cases h

/-- The rows still to come are not among those taken. -/
theorem not_taken {d : Nat} {is : List Nat} {acc : List (Nat × Record)}
    (h : (acc.map Prod.fst ++ d :: is).Nodup) {x : Nat × Record} (hx : x ∈ acc) : x.1 ≠ d :=
  (List.nodup_append.mp h).2.2 _ (List.mem_map_of_mem hx) _ List.mem_cons_self

theorem not_mem_marks {d : Nat} {is : List Nat} {acc : List (Nat × Record)}
    (h : (acc.map Prod.fst ++ d :: is).Nodup) (v : Option Record) : (d, v) ∉ marks acc := by
  intro hv
  obtain ⟨x, hx, heq⟩ := List.mem_map.mp hv
  exact not_taken h hx (Prod.mk.inj heq).1

theorem nodup_missed {d : Nat} {is : List Nat} {acc : List (Nat × Record)}
    (h : (acc.map Prod.fst ++ d :: is).Nodup) : (acc.map Prod.fst ++ is).Nodup :=
  h.sublist (List.Sublist.append_left (List.sublist_cons_self d is) _)

theorem nodup_taken {d : Nat} {is : List Nat} {acc : List (Nat × Record)} {r : Record}
    (h : (acc.map Prod.fst ++ d :: is).Nodup) :
    ((acc ++ [(d, r)]).map Prod.fst ++ is).Nodup := by
  simpa using h

/-! ### The parts of a statement -/

section Parts

variable {B : Op → Prop} {p : Record → Bool} {f : Record → Option Record}

theorem uses_whole {α : Type} {ex : Executor}
    {body : ExceptT DbError (Prog (SqlOp Record) SqlOp.Reply) α}
    (hbody : body.run.Uses fun q => B (.sql q)) (hcommit : B (.sql .commit))
    (hrollback : B (.sql .rollback)) : (SqlOp.whole ex body).run.Uses fun q => B (.sql q) := by
  cases ex with
  | tx => exact hbody
  | pool =>
      refine Prog.uses_bind hbody fun r => ?_
      cases r with
      | error e => exact ⟨hrollback, fun _ => trivial⟩
      | ok a =>
          refine ⟨hcommit, fun r => ?_⟩
          cases r with
          | error e => trivial
          | ok u => trivial

theorem uses_parts {o : SqlOp Record} (h : o.split.Uses fun q => B (.sql q)) :
    (Op.split (.sql o)).Uses B := by
  have hpart : ∀ q : SqlOp Record, B (.sql q) → (sql_part q).Uses B := fun _ hq => Prog.uses_op hq
  exact Prog.uses_interp hpart h

/-- What an `UPDATE` or `DELETE` asks for. -/
theorem uses_split_write {ex : Executor} (hscan : B (.sql (.scan p)))
    (hvisit : ∀ i, B (.sql (.visit i p f))) (hcommit : B (.sql .commit))
    (hrollback : B (.sql .rollback)) : (Op.split (.sql (.write ex p f))).Uses B := by
  have hall : ∀ is, (SqlOp.visitAll p f is).run.Uses fun q => B (.sql q) := by
    intro is
    induction is with
    | nil => trivial
    | cons i is ih =>
        exact Prog.uses_bindE (Prog.uses_op (hvisit i)) fun rows =>
          Prog.uses_bindE ih fun _ => trivial
  exact uses_parts (uses_whole (Prog.uses_bindE (Prog.uses_op hscan) hall) hcommit hrollback)

/-- What an `INSERT` asks for. -/
theorem uses_split_insert {ex : Executor} {mk : Nat → Record} {clash : Record → Record → Bool}
    (hinsert : B (.sql (.insert .tx mk clash))) (hcommit : B (.sql .commit))
    (hrollback : B (.sql .rollback)) : (Op.split (.sql (.insert ex mk clash))).Uses B :=
  uses_parts (uses_whole (Prog.uses_op hinsert) hcommit hrollback)

end Parts

/-! ### Walking through a statement -/

section Walks

variable {Call α : Type} {P : Protocol Op Op.Reply Call α} {call : Call}

/-- The rows of a snapshot, taken one after the other: `ph is acc` has the rows `is` to visit
and has changed `acc`. -/
theorem walks_visitAll {p : Record → Bool} {f : Record → Option Record}
    (ph : List Nat → List (Nat × Record) → P.Phase) {bad : P.Phase}
    (hvisit : ∀ i is acc rows, P.Step call (ph (i :: is) acc) (.sql (.visit i p f))
      (Except.ok rows) (ph is (acc ++ rows.map fun x => (i, x))))
    (hfail : ∀ i is acc e, P.Step call (ph (i :: is) acc) (.sql (.visit i p f))
      (Except.error e) bad) :
    ∀ is acc, P.Walks call ((SqlOp.visitAll p f is).run.interp sql_part) (ph is acc)
      fun ph' r => match r with
        | .ok rows => ∃ acc', ph' = ph [] acc' ∧ acc'.map Prod.snd = acc.map Prod.snd ++ rows
        | .error _ => ph' = bad := by
  intro is
  induction is with
  | nil =>
      intro acc
      exact ⟨acc, rfl, by simp⟩
  | cons i is ih =>
      intro acc r
      cases r with
      | error e => exact ⟨bad, hfail i is acc e, rfl⟩
      | ok rows =>
          refine ⟨_, hvisit i is acc rows, ?_⟩
          have hrest := ih (acc ++ rows.map fun x => (i, x))
          change P.Walks call (((SqlOp.visitAll p f is).run >>=
            ExceptT.bindCont fun rest => pure (rows ++ rest)).interp sql_part) _ _
          refine Protocol.walks_interp_bind (Protocol.walks_mono hrest ?_)
          intro ph' r hr
          cases r with
          | error e => exact hr
          | ok rest =>
              obtain ⟨acc', hph, hacc⟩ := hr
              refine ⟨acc', hph, ?_⟩
              rw [hacc]
              simp [Function.comp_def]

variable {p : Record → Bool} {f : Record → Option Record} {ph₀ bad closed : P.Phase}
  {done : List (Nat × Record) → P.Phase}

/-- An `UPDATE` or `DELETE` within a transaction. -/
theorem walks_write_tx (ph : List Nat → List (Nat × Record) → P.Phase)
    (hscan : ∀ is, P.Step call ph₀ (.sql (.scan p)) (Except.ok is) (ph is []))
    (hscan_fail : ∀ e, P.Step call ph₀ (.sql (.scan p)) (Except.error e) bad)
    (hvisit : ∀ i is acc rows, P.Step call (ph (i :: is) acc) (.sql (.visit i p f))
      (Except.ok rows) (ph is (acc ++ rows.map fun x => (i, x))))
    (hfail : ∀ i is acc e, P.Step call (ph (i :: is) acc) (.sql (.visit i p f))
      (Except.error e) bad) :
    P.Walks call (Op.split (.sql (.write .tx p f))) ph₀ fun ph' r => match r with
      | Except.ok rows => ∃ acc, ph' = ph [] acc ∧ rows = acc.map Prod.snd
      | Except.error _ => ph' = bad := by
  intro r
  cases r with
  | error e => exact ⟨bad, hscan_fail e, rfl⟩
  | ok is =>
      refine ⟨_, hscan is, Protocol.walks_mono (walks_visitAll ph hvisit hfail is []) ?_⟩
      intro ph' r hr
      cases r with
      | error e => exact hr
      | ok rows =>
          obtain ⟨acc, hph, hacc⟩ := hr
          exact ⟨acc, hph, by simpa using hacc.symm⟩

/-- An `UPDATE` or `DELETE` on its own. -/
theorem walks_write_pool (ph : List Nat → List (Nat × Record) → P.Phase)
    (hscan : ∀ is, P.Step call ph₀ (.sql (.scan p)) (Except.ok is) (ph is []))
    (hscan_fail : ∀ e, P.Step call ph₀ (.sql (.scan p)) (Except.error e) bad)
    (hvisit : ∀ i is acc rows, P.Step call (ph (i :: is) acc) (.sql (.visit i p f))
      (Except.ok rows) (ph is (acc ++ rows.map fun x => (i, x))))
    (hfail : ∀ i is acc e, P.Step call (ph (i :: is) acc) (.sql (.visit i p f))
      (Except.error e) bad)
    (hcommit : ∀ acc, P.Step call (ph [] acc) (.sql .commit) (Except.ok ()) (done acc))
    (hcommit_fail : ∀ acc e, P.Step call (ph [] acc) (.sql .commit) (Except.error e) closed)
    (hrollback : P.Step call bad (.sql .rollback) () closed) :
    P.Walks call (Op.split (.sql (.write .pool p f))) ph₀ fun ph' r => match r with
      | Except.ok rows => ∃ acc, ph' = done acc ∧ rows = acc.map Prod.snd
      | Except.error _ => ph' = closed := by
  have htx := walks_write_tx ph hscan hscan_fail hvisit hfail
  change P.Walks call ((SqlOp.split (.write .tx p f) >>= _).interp sql_part) _ _
  refine Protocol.walks_interp_bind (Protocol.walks_mono htx ?_)
  intro ph' r hr
  cases r with
  | error e =>
      obtain rfl := hr
      intro u
      exact ⟨closed, hrollback, rfl⟩
  | ok rows =>
      obtain ⟨acc, rfl, rfl⟩ := hr
      intro r
      cases r with
      | error e => exact ⟨closed, hcommit_fail acc e, rfl⟩
      | ok u => exact ⟨done acc, hcommit acc, acc, rfl, rfl⟩

/-- An `INSERT` within a transaction. -/
theorem walks_insert_tx {mk : Nat → Record} {clash : Record → Record → Bool} {done : Record → P.Phase}
    (hinsert : ∀ row, P.Step call ph₀ (.sql (.insert .tx mk clash)) (Except.ok row) (done row))
    (hfail : ∀ e, P.Step call ph₀ (.sql (.insert .tx mk clash)) (Except.error e) bad) :
    P.Walks call (Op.split (.sql (.insert .tx mk clash))) ph₀ fun ph' r => match r with
      | Except.ok row => ph' = done row
      | Except.error _ => ph' = bad := by
  intro r
  cases r with
  | error e => exact ⟨bad, hfail e, rfl⟩
  | ok row => exact ⟨done row, hinsert row, rfl⟩

/-- An `INSERT` on its own. -/
theorem walks_insert_pool {mk : Nat → Record} {clash : Record → Record → Bool}
    {held done : Record → P.Phase}
    (hinsert : ∀ row, P.Step call ph₀ (.sql (.insert .tx mk clash)) (Except.ok row) (held row))
    (hfail : ∀ e, P.Step call ph₀ (.sql (.insert .tx mk clash)) (Except.error e) bad)
    (hcommit : ∀ row, P.Step call (held row) (.sql .commit) (Except.ok ()) (done row))
    (hcommit_fail : ∀ row e, P.Step call (held row) (.sql .commit) (Except.error e) closed)
    (hrollback : P.Step call bad (.sql .rollback) () closed) :
    P.Walks call (Op.split (.sql (.insert .pool mk clash))) ph₀ fun ph' r => match r with
      | Except.ok row => ph' = done row
      | Except.error _ => ph' = closed := by
  intro r
  cases r with
  | error e =>
      refine ⟨bad, hfail e, ?_⟩
      intro u
      exact ⟨closed, hrollback, rfl⟩
  | ok row =>
      refine ⟨held row, hinsert row, ?_⟩
      intro r
      cases r with
      | error e => exact ⟨closed, hcommit_fail row e, rfl⟩
      | ok u => exact ⟨done row, hcommit row, rfl⟩

/-- The call goes through `p` from phase `ph` on and ends where `Q` holds. -/
def Goes {β : Type} (P : Protocol Op Op.Reply Call α) (call : Call) (p : Handler β) (ph : P.Phase)
    (Q : P.Phase → β → Prop) : Prop := P.Walks call (p.interp Op.split) ph Q

/-- The same for a service function: `Q` where it returns, `E` where it fails. -/
def GoesE {ε β : Type} (P : Protocol Op Op.Reply Call α) (call : Call) (p : Service ε β)
    (ph : P.Phase) (Q : P.Phase → β → Prop) (E : P.Phase → ε → Prop) : Prop :=
  Goes P call p.run ph fun ph' r => match r with
    | .ok b => Q ph' b
    | .error e => E ph' e

variable {β γ ε ε' : Type} {start : P.Phase}

theorem goes_ret {b : β} {Q : P.Phase → β → Prop} (h : Q start b) :
    Goes P call (pure b) start Q := h

theorem goes_bind {p : Handler β} {g : β → Handler γ} {Q : P.Phase → γ → Prop}
    (h : Goes P call p start fun ph' b => Goes P call (g b) ph' Q) :
    Goes P call (p >>= g) start Q := Protocol.walks_interp_bind h

theorem goes_mono {p : Handler β} {Q Q' : P.Phase → β → Prop} (h : Goes P call p start Q)
    (hQ : ∀ ph b, Q ph b → Q' ph b) : Goes P call p start Q' := Protocol.walks_mono h hQ

/-- The same steps in another protocol. -/
theorem goes_embed {Call' α' : Type} (P' : Protocol Op Op.Reply Call' α') (call' : Call')
    (f : P.Phase → P'.Phase)
    (hstep : ∀ {ph o r ph'}, P.Step call ph o r ph' → P'.Step call' (f ph) o r (f ph'))
    {p : Handler β} {Q : P.Phase → β → Prop} (h : Goes P call p start Q) :
    Goes P' call' p (f start) fun ph' b => ∃ ph, ph' = f ph ∧ Q ph b :=
  Protocol.walks_embed P' call' f hstep h

theorem goes_ask {o : Op} {Q : P.Phase → o.Reply → Prop}
    (h : P.Walks call o.split start Q) : Goes P call (ask o) start Q :=
  Protocol.walks_bind (Protocol.walks_mono h fun _ _ hQ => hQ)

/-- A handler that runs a service function and looks at how it ended. -/
theorem goes_run {p : Service ε β} {g : Except ε β → Handler γ} {Q : P.Phase → γ → Prop}
    (h : GoesE P call p start (fun ph' b => Goes P call (g (.ok b)) ph' Q)
      fun ph' e => Goes P call (g (.error e)) ph' Q) : Goes P call (p.run >>= g) start Q := by
  refine goes_bind (goes_mono h ?_)
  intro ph' r hr
  cases r with
  | ok b => exact hr
  | error e => exact hr

theorem goesE_ret {b : β} {Q : P.Phase → β → Prop} {E : P.Phase → ε → Prop} (h : Q start b) :
    GoesE P call (pure b : Service ε β) start Q E := h

theorem goesE_throw {e : ε} {Q : P.Phase → β → Prop} {E : P.Phase → ε → Prop} (h : E start e) :
    GoesE P call (throw e : Service ε β) start Q E := h

theorem goesE_bind {p : Service ε β} {g : β → Service ε γ} {Q : P.Phase → γ → Prop}
    {E : P.Phase → ε → Prop}
    (h : GoesE P call p start (fun ph' b => GoesE P call (g b) ph' Q E) E) :
    GoesE P call (p >>= g) start Q E := by
  refine goes_bind (goes_mono h ?_)
  intro ph' r hr
  cases r with
  | ok b => exact hr
  | error e => exact hr

theorem goesE_mono {p : Service ε β} {Q Q' : P.Phase → β → Prop} {E E' : P.Phase → ε → Prop}
    (h : GoesE P call p start Q E) (hQ : ∀ ph b, Q ph b → Q' ph b) (hE : ∀ ph e, E ph e → E' ph e) :
    GoesE P call p start Q' E' := by
  refine goes_mono h ?_
  intro ph' r hr
  cases r with
  | ok b => exact hQ _ _ hr
  | error e => exact hE _ _ hr

theorem goesE_lift {p : Handler β} {Q : P.Phase → β → Prop} {E : P.Phase → ε → Prop}
    (h : Goes P call p start Q) : GoesE P call (liftM p : Service ε β) start Q E :=
  goes_bind (goes_mono h fun _ _ hQ => hQ)

/-- A function whose failure becomes an error of the service. -/
theorem goesE_attempt {err : ε' → ε} {p : Handler (Except ε' β)} {Q : P.Phase → β → Prop}
    {E : P.Phase → ε → Prop}
    (h : Goes P call p start fun ph' r => match r with
      | .ok b => Q ph' b
      | .error e => E ph' (err e)) : GoesE P call (attempt err p) start Q E := by
  refine goes_bind (goes_mono h ?_)
  intro ph' r hr
  cases r with
  | ok b => exact hr
  | error e => exact hr

/-- What holds a transaction gives it back in the end. -/
theorem goesE_in_tx {body : Service ε β} {Q : P.Phase → β → Prop} {E : P.Phase → ε → Prop}
    (h : GoesE P call body start
      (fun ph' b => ∃ ph'', P.Step call ph' (.sql .rollback) () ph'' ∧ Q ph'' b)
      (fun ph' e => ∃ ph'', P.Step call ph' (.sql .rollback) () ph'' ∧ E ph'' e)) :
    GoesE P call (in_tx body) start Q E := by
  refine goes_bind (goes_mono h ?_)
  intro ph' r hr
  cases r with
  | ok b =>
      obtain ⟨ph'', hstep, hQ⟩ := hr
      exact fun _ => ⟨ph'', hstep, hQ⟩
  | error e =>
      obtain ⟨ph'', hstep, hE⟩ := hr
      exact fun _ => ⟨ph'', hstep, hE⟩

section Tables

variable {τ : Type} {T : Relation τ} {q : τ → Bool} {err : DbError → ε}

/-- A `SELECT`, by the rows it returns. -/
theorem goesE_select {next : List Record → P.Phase} {Q : P.Phase → List τ → Prop}
    {E : P.Phase → ε → Prop}
    (hrows : ∀ rows, P.Step call start (.sql (.select (T.sel q))) (Except.ok rows) (next rows))
    (hfail : ∀ e, P.Step call start (.sql (.select (T.sel q))) (Except.error e) closed)
    (hQ : ∀ rows, Q (next rows) (rows.filterMap T.prj)) (hE : ∀ e, E closed e) :
    GoesE P call (attempt err (select_from T q)) start Q E := by
  refine goesE_attempt (goes_bind (goes_ask ?_))
  intro r
  cases r with
  | ok rows => exact ⟨_, hrows rows, hQ rows⟩
  | error e => exact ⟨_, hfail e, hE _⟩

variable {change : Record → Option Record} {Q : P.Phase → List τ → Prop} {E : P.Phase → ε → Prop}

/-- A statement that changes rows within a transaction, by the rows it changed. -/
theorem goesE_write_tx (ph : List Nat → List (Nat × Record) → P.Phase)
    (hscan : ∀ is, P.Step call start (.sql (.scan (T.sel q))) (Except.ok is) (ph is []))
    (hscan_fail : ∀ e, P.Step call start (.sql (.scan (T.sel q))) (Except.error e) bad)
    (hvisit : ∀ i is acc rows, P.Step call (ph (i :: is) acc) (.sql (.visit i (T.sel q) change))
      (Except.ok rows) (ph is (acc ++ rows.map fun x => (i, x))))
    (hfail : ∀ i is acc e, P.Step call (ph (i :: is) acc) (.sql (.visit i (T.sel q) change))
      (Except.error e) bad)
    (hQ : ∀ acc, Q (ph [] acc) ((acc.map Prod.snd).filterMap T.prj)) (hE : ∀ e, E bad e) :
    GoesE P call (attempt err do
        let r ← ask (.sql (.write .tx (T.sel q) change))
        return T.decode r) start Q E := by
  refine goesE_attempt (goes_bind (goes_ask (Protocol.walks_mono
    (walks_write_tx ph hscan hscan_fail hvisit hfail) ?_)))
  intro ph' r hr
  cases r with
  | ok rows =>
      obtain ⟨acc, rfl, rfl⟩ := hr
      exact hQ acc
  | error e =>
      obtain rfl := hr
      exact hE _

/-- A statement that changes rows on a connection of its own. -/
theorem goesE_write_pool (ph : List Nat → List (Nat × Record) → P.Phase)
    (hscan : ∀ is, P.Step call start (.sql (.scan (T.sel q))) (Except.ok is) (ph is []))
    (hscan_fail : ∀ e, P.Step call start (.sql (.scan (T.sel q))) (Except.error e) bad)
    (hvisit : ∀ i is acc rows, P.Step call (ph (i :: is) acc) (.sql (.visit i (T.sel q) change))
      (Except.ok rows) (ph is (acc ++ rows.map fun x => (i, x))))
    (hfail : ∀ i is acc e, P.Step call (ph (i :: is) acc) (.sql (.visit i (T.sel q) change))
      (Except.error e) bad)
    (hcommit : ∀ acc, P.Step call (ph [] acc) (.sql .commit) (Except.ok ()) (done acc))
    (hcommit_fail : ∀ acc e, P.Step call (ph [] acc) (.sql .commit) (Except.error e) closed)
    (hrollback : P.Step call bad (.sql .rollback) () closed)
    (hQ : ∀ acc, Q (done acc) ((acc.map Prod.snd).filterMap T.prj)) (hE : ∀ e, E closed (err e)) :
    GoesE P call (attempt err do
        let r ← ask (.sql (.write .pool (T.sel q) change))
        return T.decode r) start Q E := by
  refine goesE_attempt (goes_bind (goes_ask (Protocol.walks_mono
    (walks_write_pool ph hscan hscan_fail hvisit hfail hcommit hcommit_fail hrollback) ?_)))
  intro ph' r hr
  cases r with
  | ok rows =>
      obtain ⟨acc, rfl, rfl⟩ := hr
      exact hQ acc
  | error e =>
      obtain rfl := hr
      exact hE _

/-- An `INSERT` within a transaction, by the row it returned. -/
theorem goesE_insert_tx {mk : Uuid → τ} {put : Record → P.Phase} {Q : P.Phase → τ → Prop}
    (hinsert : ∀ row, P.Step call start (.sql (.insert .tx (fun n => T.inj (mk n)) T.clashes))
      (Except.ok row) (put row))
    (hfail : ∀ e, P.Step call start (.sql (.insert .tx (fun n => T.inj (mk n)) T.clashes))
      (Except.error e) bad)
    (hQ : ∀ row a, T.prj row = some a → Q (put row) a)
    (hnone : ∀ row, T.prj row = none → E (put row) (err .other)) (hE : ∀ e, E bad e) :
    GoesE P call (attempt err (insert_into T .tx mk)) start Q E := by
  refine goesE_attempt (goes_bind (goes_ask (Protocol.walks_mono
    (walks_insert_tx hinsert hfail) ?_)))
  intro ph' r hr
  cases r with
  | error e =>
      obtain rfl := hr
      exact hE _
  | ok row =>
      obtain rfl := hr
      refine goes_ret ?_
      unfold Relation.decodeOne
      dsimp only
      cases hprj : T.prj row with
      | some a => exact hQ row a hprj
      | none => exact hnone row hprj

/-- An `INSERT` on a connection of its own, by the row it returned. -/
theorem goesE_insert_pool {mk : Uuid → τ} {put done : Record → P.Phase} {Q : P.Phase → τ → Prop}
    (hinsert : ∀ row, P.Step call start (.sql (.insert .tx (fun n => T.inj (mk n)) T.clashes))
      (Except.ok row) (put row))
    (hfail : ∀ e, P.Step call start (.sql (.insert .tx (fun n => T.inj (mk n)) T.clashes))
      (Except.error e) bad)
    (hcommit : ∀ row, P.Step call (put row) (.sql .commit) (Except.ok ()) (done row))
    (hcommit_fail : ∀ row e, P.Step call (put row) (.sql .commit) (Except.error e) closed)
    (hrollback : P.Step call bad (.sql .rollback) () closed)
    (hQ : ∀ row a, T.prj row = some a → Q (done row) a)
    (hnone : ∀ row, T.prj row = none → E (done row) (err .other)) (hE : ∀ e, E closed e) :
    GoesE P call (attempt err (insert_into T .pool mk)) start Q E := by
  refine goesE_attempt (goes_bind (goes_ask (Protocol.walks_mono
    (walks_insert_pool hinsert hfail hcommit hcommit_fail hrollback) ?_)))
  intro ph' r hr
  cases r with
  | error e =>
      obtain rfl := hr
      exact hE _
  | ok row =>
      obtain rfl := hr
      refine goes_ret ?_
      unfold Relation.decodeOne
      dsimp only
      cases hprj : T.prj row with
      | some a => exact hQ row a hprj
      | none => exact hnone row hprj

end Tables

end Walks

end Authnz
