/-
Walking through the service's programs under a policy.

`Rights` say which rows a call may add, what it may make of a row and what it may put
into a cache, on the replies it has had; a statement is permitted when its rows are.
Besides, a call takes the rows it changes in order: those of users last, and those of
one statement as its snapshot lists them.  The lemmas here are the forms of statement
once more, read as what a call learns from them: each hands on a longer log, and
between transactions the call holds no row.
-/
import Authnz.Basis.Warrants
import Authnz.Proofs.Walking

namespace Authnz

open Basis

/-- The replies a call of the service has had. -/
abbrev Replies : Type := Log Op Op.Reply

theorem suffix_of_cons {x : (o : Op) × o.Reply} {log log' : Replies} (h : log' = x :: log) :
    log <:+ log' := by
  rw [h]
  exact List.suffix_cons _ _

/-- The call has added or taken rows it has neither committed nor given back. -/
def writing : Replies → Bool
  | [] => false
  | ⟨.sql .commit, _⟩ :: _ => false
  | ⟨.sql .rollback, _⟩ :: _ => false
  | ⟨.sql (.visit _ _ _), _⟩ :: _ => true
  | ⟨.sql (.insert _ _ _), _⟩ :: _ => true
  | ⟨.sql (.write _ _ _), _⟩ :: _ => true
  | _ :: past => writing past

/-- The rows of an `UPDATE` or `DELETE` are on record with the visits that changed them. -/
def Visited (p : Record → Bool) (f : Record → Option Record) (log : Replies) (row : Record) : Prop :=
  ∃ i rows, ⟨.sql (.visit i p f), Except.ok rows⟩ ∈ log ∧ row ∈ rows

theorem Visited.mono {p : Record → Bool} {f : Record → Option Record} {row : Record}
    {log log' : Replies} (h : Visited p f log row) (hlater : log <:+ log') : Visited p f log' row := by
  obtain ⟨i, rows, hmem, hrow⟩ := h
  exact ⟨i, rows, hlater.subset hmem, hrow⟩

/-! ### Rows in hand -/

/-- The rows the call has visited and neither committed nor given back, the latest first, each with
the condition of its statement. -/
def taken : Replies → List (Nat × (Record → Bool))
  | [] => []
  | ⟨.sql .commit, _⟩ :: _ => []
  | ⟨.sql .rollback, _⟩ :: _ => []
  | ⟨.sql (.visit i p _), _⟩ :: past => (i, p) :: taken past
  | _ :: past => taken past

/-- The call has inserted rows it has neither committed nor given back. -/
def adding : Replies → Bool
  | [] => false
  | ⟨.sql .commit, _⟩ :: _ => false
  | ⟨.sql .rollback, _⟩ :: _ => false
  | ⟨.sql (.insert _ _ _), _⟩ :: _ => true
  | _ :: past => adding past

/-- Between transactions a call has nothing in hand. -/
theorem nothing_in_hand {log : Replies} (h : writing log = false) :
    taken log = [] ∧ adding log = false := by
  fun_induction writing log with
  | case7 e past h1 h2 h3 h4 h5 ih =>
      have hrest := ih h
      rcases e with ⟨o, r⟩
      simp_all [taken, adding]
  | _ => first | exact ⟨rfl, rfl⟩ | cases h

/-- Users' rows are taken after all others. -/
def lock_rank : Record → Nat
  | .user _ => 1
  | _ => 0

/-- All rows that satisfy the condition are of this rank. -/
def Ranked (n : Nat) (p : Record → Bool) : Prop := ∀ r, p r = true → lock_rank r = n

theorem ranked_sel {τ : Type} {T : Relation τ} {n : Nat} (h : ∀ a, lock_rank (T.inj a) = n)
    (q : τ → Bool) : Ranked n (T.sel q) := by
  intro r hr
  obtain ⟨a, rfl, -⟩ := T.sel_iff.mp hr
  exact h a

/-- The call has no new row in hand, and others of lower ranks only. -/
structure Below (n : Nat) (log : Replies) : Prop where
  adding : adding log = false
  taken : ∀ e ∈ taken log, ∃ m < n, Ranked m e.2

theorem below_of_idle {n : Nat} {log : Replies} (h : writing log = false) : Below n log := by
  obtain ⟨htaken, hadding⟩ := nothing_in_hand h
  refine ⟨hadding, fun e he => ?_⟩
  rw [htaken] at he
  cases he

/-- The row is the next of its statement's, and rows taken before the statement rank lower. -/
def NextInLine (log : Replies) (i : Nat) (p : Record → Bool) : Prop :=
  ∃ n before after earlier, Ranked n p ∧
    ⟨.sql (.scan p), Except.ok (before ++ i :: after)⟩ ∈ log ∧
    taken log = before.reverse.map (·, p) ++ earlier ∧ ∀ e ∈ earlier, ∃ m < n, Ranked m e.2

/-- Nothing is taken after an insert, and only a refresh token is inserted with other rows in hand,
unless no unique index can be in the way.  A `wide` call may take rows out of turn. -/
def InOrder (wide : Prop) (log : Replies) : SqlOp Record → Prop
  | .scan _ => adding log = false
  | .visit i p _ => adding log = false ∧ (wide ∨ NextInLine log i p)
  | .insert _ mk clash => (∀ a b, clash a b = false) ∨ adding log = false ∧
      (taken log = [] ∨ ∃ new : Uuid → RefreshToken,
        mk = (fun n => refresh_tokens.inj (new n)) ∧ clash = refresh_tokens.clashes)
  | _ => True

/-- No index is in the way of an event. -/
theorem outbox_clashes (a b : Record) : outbox.clashes a b = false := by
  unfold Relation.clashes
  split <;> rfl

/-- What calls may do, on the replies they have had. -/
structure Rights (Call α : Type) where
  Add : Call → Replies → Record → Prop
  Make : Call → Replies → Record → Option Record → Prop
  Put : Call → Replies → Op → Prop
  Answer : Call → Replies → α → Prop
  /-- The call may change rows of several tables in one statement. -/
  Wide : Call → Prop

namespace Rights

variable {Call α : Type} (R : Rights Call α)

/-- The statement does what the call has a right to, reads only what is committed, and takes its
rows in order. -/
structure Licensed (call : Call) (log : Replies) (q : SqlOp Record) : Prop where
  part : q.Part
  adds : ∀ r, q.Inserts r → R.Add call log r
  makes : ∀ r v, q.Makes r v → R.Make call log r v
  reads : (∃ p, q = .select p) → writing log = false
  order : InOrder (R.Wide call) log q

def Permits (call : Call) (log : Replies) : Op → Prop
  | .sql q => R.Licensed call log q
  | .update id dto => writing log = false ∧
      ∀ u : User, u.id = id → R.Make call log (.user u) (some (.user (u.update dto)))
  | o => R.Put call log o

/-- A call has nothing in hand when it ends. -/
def policy : Policy Op Op.Reply Call α where
  Permits := R.Permits
  Answers call log a := writing log = false ∧ R.Answer call log a

variable {R} {call : Call} {log : Replies}

theorem permits_begin : R.Permits call log (.sql .begin) :=
  ⟨.begin, fun _ h => h.elim, fun _ _ h => h.elim, fun ⟨_, h⟩ => (by cases h), trivial⟩

theorem permits_commit : R.Permits call log (.sql .commit) :=
  ⟨.commit, fun _ h => h.elim, fun _ _ h => h.elim, fun ⟨_, h⟩ => (by cases h), trivial⟩

theorem permits_rollback : R.Permits call log (.sql .rollback) :=
  ⟨.rollback, fun _ h => h.elim, fun _ _ h => h.elim, fun ⟨_, h⟩ => (by cases h), trivial⟩

theorem permits_scan (p : Record → Bool) (h : adding log = false) :
    R.Permits call log (.sql (.scan p)) :=
  ⟨.scan p, fun _ h => h.elim, fun _ _ h => h.elim, fun ⟨_, h⟩ => (by cases h), h⟩

theorem permits_select (p : Record → Bool) (h : writing log = false) :
    R.Permits call log (.sql (.select p)) :=
  ⟨.select p, fun _ h => h.elim, fun _ _ h => h.elim, fun _ => h, trivial⟩

theorem permits_visit {i : Nat} {p : Record → Bool} {f : Record → Option Record}
    (h : ∀ r, p r = true → R.Make call log r (f r)) (hadding : adding log = false)
    (hturn : R.Wide call ∨ NextInLine log i p) : R.Permits call log (.sql (.visit i p f)) :=
  ⟨.visit i p f, fun _ h => h.elim, fun r _ hm => hm.2 ▸ h r hm.1, fun ⟨_, h⟩ => (by cases h),
    hadding, hturn⟩

theorem permits_insert {mk : Nat → Record} {clash : Record → Record → Bool}
    (h : ∀ n, R.Add call log (mk n)) (horder : InOrder (R.Wide call) log (.insert .tx mk clash)) :
    R.Permits call log (.sql (.insert .tx mk clash)) :=
  ⟨.insert mk clash, fun _ hr => hr.choose_spec ▸ h _, fun _ _ h => h.elim,
    fun ⟨_, h⟩ => (by cases h), horder⟩

/-! ### What a call learns on the way -/

section Learning

variable {β γ ε ε' : Type}

/-- Between transactions: the call goes through `p` by permission, ends between transactions, and
`Q` holds of the replies it has had then and of what `p` returns. -/
structure Learns (R : Rights Call α) (call : Call) (p : Handler β) (log : Replies)
    (Q : Replies → β → Prop) : Prop where
  goes : writing log = false → Goes R.policy.protocol call p log fun log' b =>
    log <:+ log' ∧ writing log' = false ∧ Q log' b

/-- The same for a service function. -/
def LearnsE (R : Rights Call α) (call : Call) (p : Service ε β) (log : Replies)
    (Q : Replies → β → Prop) (E : Replies → ε → Prop) : Prop :=
  Learns R call p.run log fun log' r => match r with
    | .ok b => Q log' b
    | .error e => E log' e

theorem learns_ret {b : β} {Q : Replies → β → Prop} (h : Q log b) : Learns R call (pure b) log Q :=
  ⟨fun hw => goes_ret ⟨List.suffix_refl _, hw, h⟩⟩

theorem learns_mono {p : Handler β} {Q Q' : Replies → β → Prop} (h : Learns R call p log Q)
    (hQ : ∀ log' b, log <:+ log' → Q log' b → Q' log' b) : Learns R call p log Q' :=
  ⟨fun hw => goes_mono (h.goes hw) fun log' b hb => ⟨hb.1, hb.2.1, hQ log' b hb.1 hb.2.2⟩⟩

theorem learns_bind {p : Handler β} {g : β → Handler γ} {Q : Replies → γ → Prop}
    (h : Learns R call p log fun log' b => Learns R call (g b) log' Q) :
    Learns R call (p >>= g) log Q := by
  refine ⟨fun hw => goes_bind (goes_mono (h.goes hw) ?_)⟩
  rintro log' b ⟨hlater, hw', hg⟩
  exact goes_mono (hg.goes hw') fun log'' _ hb => ⟨hlater.trans hb.1, hb.2⟩

/-- An operation of one step. -/
theorem goes_step {o : Op} {Q : Replies → o.Reply → Prop} (hsplit : o.split = ask o)
    (hpermits : R.Permits call log o) (hQ : ∀ r, Q (⟨o, r⟩ :: log) r) :
    Goes R.policy.protocol call (ask o) log Q := by
  refine goes_ask ?_
  rw [hsplit]
  exact fun r => ⟨_, ⟨hpermits, rfl⟩, hQ r⟩

/-- An operation of one step that neither opens nor closes anything. -/
theorem learns_ask {o : Op} {Q : Replies → o.Reply → Prop} (hsplit : o.split = ask o)
    (hwriting : ∀ r : o.Reply, writing (⟨o, r⟩ :: log) = writing log)
    (hpermits : writing log = false → R.Permits call log o) (hQ : ∀ r, Q (⟨o, r⟩ :: log) r) :
    Learns R call (ask o) log Q :=
  ⟨fun hw => goes_step hsplit (hpermits hw) fun r =>
    ⟨List.suffix_cons _ _, (hwriting r).trans hw, hQ r⟩⟩

theorem learns_run {p : Service ε β} {g : Except ε β → Handler γ} {Q : Replies → γ → Prop}
    (h : LearnsE R call p log (fun log' b => Learns R call (g (.ok b)) log' Q)
      fun log' e => Learns R call (g (.error e)) log' Q) : Learns R call (p.run >>= g) log Q := by
  refine learns_bind (learns_mono h fun log' r _ hr => ?_)
  cases r with
  | ok b => exact hr
  | error e => exact hr

/-- What a call learns between transactions it also learns at the start of one. -/
theorem LearnsE.goesE {p : Service ε β} {Q : Replies → β → Prop} {E : Replies → ε → Prop}
    (h : LearnsE R call p log Q E) (hw : writing log = false) :
    GoesE R.policy.protocol call p log (fun log' b => log <:+ log' ∧ writing log' = false ∧ Q log' b)
      fun log' e => log <:+ log' ∧ E log' e := by
  refine goes_mono (h.goes hw) fun log' r hr => ?_
  cases r with
  | ok b => exact hr
  | error e => exact ⟨hr.1, hr.2.2⟩

theorem learnsE_ret {b : β} {Q : Replies → β → Prop} {E : Replies → ε → Prop} (h : Q log b) :
    LearnsE R call (pure b : Service ε β) log Q E := learns_ret h

theorem learnsE_throw {e : ε} {Q : Replies → β → Prop} {E : Replies → ε → Prop} (h : E log e) :
    LearnsE R call (throw e : Service ε β) log Q E := learns_ret h

theorem learnsE_mono {p : Service ε β} {Q Q' : Replies → β → Prop} {E E' : Replies → ε → Prop}
    (h : LearnsE R call p log Q E) (hQ : ∀ log' b, log <:+ log' → Q log' b → Q' log' b)
    (hE : ∀ log' e, log <:+ log' → E log' e → E' log' e) : LearnsE R call p log Q' E' := by
  refine learns_mono h fun log' r hlater hr => ?_
  cases r with
  | ok b => exact hQ _ _ hlater hr
  | error e => exact hE _ _ hlater hr

theorem learnsE_bind {p : Service ε β} {g : β → Service ε γ} {Q : Replies → γ → Prop}
    {E : Replies → ε → Prop}
    (h : LearnsE R call p log (fun log' b => LearnsE R call (g b) log' Q E) E) :
    LearnsE R call (p >>= g) log Q E := by
  refine learns_bind (learns_mono h fun log' r _ hr => ?_)
  cases r with
  | ok b => exact hr
  | error e => exact learns_ret hr

theorem learnsE_lift {p : Handler β} {Q : Replies → β → Prop} {E : Replies → ε → Prop}
    (h : Learns R call p log Q) : LearnsE R call (liftM p : Service ε β) log Q E :=
  learns_bind (learns_mono h fun _ _ _ hQ => learns_ret hQ)

theorem learnsE_attempt {err : ε' → ε} {p : Handler (Except ε' β)} {Q : Replies → β → Prop}
    {E : Replies → ε → Prop}
    (h : Learns R call p log fun log' r => match r with
      | .ok b => Q log' b
      | .error e => E log' (err e)) : LearnsE R call (attempt err p) log Q E := by
  refine learns_bind (learns_mono h fun log' r _ hr => ?_)
  cases r with
  | ok b => exact learns_ret hr
  | error e => exact learns_ret hr

/-- A transaction: what its body learns, once it has been dropped. -/
theorem learnsE_in_tx {body : Service ε β} {Q : Replies → β → Prop} {E : Replies → ε → Prop}
    (h : writing log = false → GoesE R.policy.protocol call body log
      (fun log' b => log <:+ log' ∧ Q (⟨.sql .rollback, ()⟩ :: log') b)
      fun log' e => log <:+ log' ∧ E (⟨.sql .rollback, ()⟩ :: log') e) :
    LearnsE R call (in_tx body) log Q E := by
  refine ⟨fun hw => ?_⟩
  have hclosed : GoesE R.policy.protocol call (in_tx body) log
      (fun log' b => log <:+ log' ∧ writing log' = false ∧ Q log' b)
      fun log' e => log <:+ log' ∧ writing log' = false ∧ E log' e := by
    refine goesE_in_tx (goesE_mono (h hw) ?_ ?_)
    · rintro log' b ⟨hlater, hQ⟩
      exact ⟨_, ⟨permits_rollback, rfl⟩, hlater.trans (List.suffix_cons _ _), rfl, hQ⟩
    · rintro log' e ⟨hlater, hE⟩
      exact ⟨_, ⟨permits_rollback, rfl⟩, hlater.trans (List.suffix_cons _ _), rfl, hE⟩
  refine goes_mono hclosed fun log' r hr => ?_
  cases r with
  | ok b => exact hr
  | error e => exact hr

theorem learns_begin {Q : Replies → Except DbError Unit → Prop}
    (hQ : ∀ r, Q (⟨.sql .begin, r⟩ :: log) r) : Learns R call begin_tx log Q :=
  learns_ask rfl (fun _ => rfl) (fun _ => permits_begin) hQ

/-! ### Statements -/

section Tables

variable {τ : Type} {T : Relation τ} {q : τ → Bool} {err : DbError → ε}
  {E : Replies → ε → Prop}

/-- A `SELECT` outside of any change, by the rows it returns. -/
theorem learnsE_select {Q : Replies → List τ → Prop}
    (hQ : ∀ rows, Q (⟨.sql (.select (T.sel q)), Except.ok rows⟩ :: log) (rows.filterMap T.prj))
    (hE : ∀ log' e, log <:+ log' → E log' e) :
    LearnsE R call (attempt err (select_from T q)) log Q E := by
  refine learnsE_attempt (learns_bind (learns_ask rfl (fun _ => rfl) (permits_select _) fun r => ?_))
  cases r with
  | ok rows => exact learns_ret (hQ rows)
  | error e => exact learns_ret (hE _ _ (List.suffix_cons _ _))

end Tables

section Writes

variable {p : Record → Bool} {f : Record → Option Record}

theorem goes_visitAll {base : Replies} {all : List Nat}
    (hmake : ∀ log' r, base <:+ log' → p r = true → R.Make call log' r (f r))
    (hscan : ⟨.sql (.scan p), Except.ok all⟩ ∈ base)
    (hrank : R.Wide call ∨ ∃ n, Ranked n p ∧ Below n base) (is : List Nat) :
    ∀ {log : Replies} (before : List Nat), base <:+ log → all = before ++ is →
      adding log = false → taken log = before.reverse.map (·, p) ++ taken base →
      R.policy.protocol.Walks call ((SqlOp.visitAll p f is).run.interp sql_part) log fun log' r =>
        (log <:+ log' ∧ ∀ n, Ranked n p → Below n base → Below (n + 1) log') ∧
          ∀ rows, r = Except.ok rows → ∀ row ∈ rows, Visited p f log' row := by
  -- what is taken so far is the statement's and what was taken before
  have hranks : ∀ {log : Replies} {before : List Nat}, adding log = false →
      taken log = before.reverse.map (·, p) ++ taken base →
      ∀ n, Ranked n p → Below n base → Below (n + 1) log := by
    intro log before hadding htaken n hp hb
    refine ⟨hadding, fun e he => ?_⟩
    rw [htaken] at he
    rcases List.mem_append.mp he with he | he
    · obtain ⟨i, -, rfl⟩ := List.mem_map.mp he
      exact ⟨n, Nat.lt_succ_self n, hp⟩
    · obtain ⟨m, hm, hranked⟩ := hb.taken e he
      exact ⟨m, Nat.lt_succ_of_lt hm, hranked⟩
  induction is with
  | nil =>
      intro log before _ _ hadding htaken
      refine ⟨⟨List.suffix_refl _, hranks hadding htaken⟩, fun rows h => ?_⟩
      obtain rfl : [] = rows := Except.ok.inj h
      exact fun row hrow => (List.not_mem_nil hrow).elim
  | cons i is ih =>
      intro log before hbase hall hadding htaken r
      have hturn : R.Wide call ∨ NextInLine log i p := by
        rcases hrank with hwide | ⟨n, hp, hb⟩
        · exact .inl hwide
        · exact .inr ⟨n, before, is, taken base, hp, hall ▸ hbase.subset hscan, htaken, hb.taken⟩
      have htaken' : taken (⟨.sql (.visit i p f), r⟩ :: log) =
          (before ++ [i]).reverse.map (·, p) ++ taken base := by
        rw [List.reverse_append, List.reverse_singleton, List.singleton_append, List.map_cons,
          List.cons_append, ← htaken]
        rfl
      refine ⟨_, ⟨permits_visit (fun r hr => hmake log r hbase hr) hadding hturn, rfl⟩, ?_⟩
      cases r with
      | error e =>
          exact ⟨⟨List.suffix_cons _ _, hranks hadding htaken'⟩, fun rows h => by cases h⟩
      | ok found =>
          change R.policy.protocol.Walks call (((SqlOp.visitAll p f is).run >>=
            ExceptT.bindCont fun rest => pure (found ++ rest)).interp sql_part) _ _
          refine Protocol.walks_interp_bind (Protocol.walks_mono
            (ih (before ++ [i]) (hbase.trans (List.suffix_cons _ _)) (by rw [hall]; simp) hadding
              htaken') ?_)
          rintro log' r ⟨⟨hlater, hdone⟩, hrows⟩
          cases r with
          | error e => exact ⟨⟨(List.suffix_cons _ _).trans hlater, hdone⟩, fun rows h => by cases h⟩
          | ok rest =>
              refine ⟨⟨(List.suffix_cons _ _).trans hlater, hdone⟩, fun rows h row hrow => ?_⟩
              obtain rfl : found ++ rest = rows := Except.ok.inj h
              rcases List.mem_append.mp hrow with hrow | hrow
              · exact ⟨i, found, hlater.subset List.mem_cons_self, hrow⟩
              · exact hrows rest rfl row hrow

/-- An `UPDATE` or `DELETE` within a transaction. -/
theorem walks_write {base : Replies}
    (hmake : ∀ log' r, base <:+ log' → p r = true → R.Make call log' r (f r))
    (hadding : adding base = false) (hrank : R.Wide call ∨ ∃ n, Ranked n p ∧ Below n base) :
    R.policy.protocol.Walks call (Op.split (.sql (.write .tx p f))) base fun log' r =>
      (base <:+ log' ∧ ∀ n, Ranked n p → Below n base → Below (n + 1) log') ∧
        ∀ rows, r = Except.ok rows → ∀ row ∈ rows, Visited p f log' row := by
  intro r
  refine ⟨_, ⟨permits_scan p hadding, rfl⟩, ?_⟩
  -- a scan takes nothing
  have hsame : ∀ {m : Nat}, Below m base → Below m (⟨.sql (.scan p), r⟩ :: base) :=
    fun hb => ⟨hb.adding, hb.taken⟩
  cases r with
  | error e =>
      refine ⟨⟨List.suffix_cons _ _, fun n _ hb => ⟨hadding, fun e he => ?_⟩⟩,
        fun rows h => by cases h⟩
      obtain ⟨m, hm, hranked⟩ := hb.taken e he
      exact ⟨m, Nat.lt_succ_of_lt hm, hranked⟩
  | ok is =>
      have hlater : base <:+ ⟨.sql (.scan p), Except.ok is⟩ :: base := List.suffix_cons _ _
      refine Protocol.walks_mono (goes_visitAll (fun log' r hl hr => hmake log' r (hlater.trans hl) hr)
        List.mem_cons_self (hrank.imp_right fun ⟨n, hp, hb⟩ => ⟨n, hp, hsame hb⟩) is []
        (List.suffix_refl _) rfl hadding rfl) ?_
      rintro log' r ⟨⟨hl, hdone⟩, hrows⟩
      exact ⟨⟨hlater.trans hl, fun n hp hb => hdone n hp (hsame hb)⟩, hrows⟩

/-- An `UPDATE` or `DELETE` on a connection of its own. -/
theorem learns_write
    (hmake : ∀ log' r, log <:+ log' → p r = true → R.Make call log' r (f r))
    (hrank : R.Wide call ∨ ∃ n, Ranked n p)
    {Q : Replies → Except DbError (List Record) → Prop}
    (hok : ∀ past rows, log <:+ past → (∀ row ∈ rows, Visited p f past row) →
      Q (⟨.sql .commit, Except.ok ()⟩ :: past) (.ok rows))
    (herror : ∀ log' e, log <:+ log' → Q log' (.error e)) :
    Learns R call (ask (.sql (.write .pool p f))) log Q := by
  refine ⟨fun hw => goes_ask ?_⟩
  have hadding := (nothing_in_hand hw).2
  change R.policy.protocol.Walks call ((SqlOp.split (.write .tx p f) >>= _).interp sql_part) _ _
  refine Protocol.walks_interp_bind (Protocol.walks_mono (walks_write hmake hadding
    (hrank.imp_right fun ⟨n, hp⟩ => ⟨n, hp, below_of_idle hw⟩)) ?_)
  rintro past r ⟨⟨hlater, -⟩, hrows⟩
  have hdone : ∀ x, log <:+ x :: past := fun x => hlater.trans (List.suffix_cons x past)
  cases r with
  | error e => exact fun u => ⟨_, ⟨permits_rollback, rfl⟩, hdone _, rfl, herror _ _ (hdone _)⟩
  | ok rows =>
      intro r
      refine ⟨_, ⟨permits_commit, rfl⟩, ?_⟩
      cases r with
      | error e => exact ⟨hdone _, rfl, herror _ _ (hdone _)⟩
      | ok u => exact ⟨hdone _, rfl, hok past rows hlater (hrows rows rfl)⟩

end Writes

section Changes

variable {τ : Type} {T : Relation τ} {q : τ → Bool} {err : DbError → ε}
  {change : Record → Option Record}

/-- A statement that changes rows within a transaction, those of lower ranks in hand. -/
theorem goesE_change {n : Nat}
    (hmake : ∀ log' a, log <:+ log' → q a = true → R.Make call log' (T.inj a) (change (T.inj a)))
    (hrank : ∀ a, lock_rank (T.inj a) = n) (hbelow : Below n log) :
    GoesE R.policy.protocol call (attempt err do
        let r ← ask (.sql (.write .tx (T.sel q) change))
        return T.decode r) log
      (fun log' l => (log <:+ log' ∧ Below (n + 1) log') ∧
        ∀ a ∈ l, Visited (T.sel q) change log' (T.inj a))
      fun log' _ => log <:+ log' := by
  have hranked := ranked_sel hrank q
  refine goesE_attempt (goes_bind (goes_ask (Protocol.walks_mono (walks_write ?_ hbelow.adding
    (.inr ⟨n, hranked, hbelow⟩)) ?_)))
  · intro log' r hlater hr
    obtain ⟨a, rfl, ha⟩ := T.sel_iff.mp hr
    exact hmake log' a hlater ha
  · rintro log' r ⟨⟨hlater, hdone⟩, hrows⟩
    cases r with
    | error e => exact hlater
    | ok rows =>
        refine ⟨⟨hlater, hdone n hranked hbelow⟩, fun a ha => ?_⟩
        obtain ⟨row, hrow, hprj⟩ := List.mem_filterMap.mp ha
        exact T.inj_of_prj hprj ▸ hrows rows rfl row hrow

/-- A statement that changes rows on a connection of its own: when it returns, it has just
committed. -/
theorem learns_change {n : Nat}
    (hmake : ∀ log' a, log <:+ log' → q a = true → R.Make call log' (T.inj a) (change (T.inj a)))
    (hrank : ∀ a, lock_rank (T.inj a) = n)
    {Q : Replies → List τ → Prop} {E : Replies → ε → Prop}
    (hQ : ∀ past l, log <:+ past → (∀ a ∈ l, Visited (T.sel q) change past (T.inj a)) →
      Q (⟨.sql .commit, Except.ok ()⟩ :: past) l)
    (hE : ∀ log' e, log <:+ log' → E log' e) :
    LearnsE R call (attempt err do
        let r ← ask (.sql (.write .pool (T.sel q) change))
        return T.decode r) log Q E := by
  refine learnsE_attempt (learns_bind (learns_write (fun log' r hlater hr => ?_)
    (.inr ⟨n, ranked_sel hrank q⟩) (fun past rows hlater hrows => ?_) fun log' e hlater => ?_))
  · obtain ⟨a, rfl, ha⟩ := T.sel_iff.mp hr
    exact hmake log' a hlater ha
  · refine learns_ret (hQ past _ hlater fun a ha => ?_)
    obtain ⟨row, hrow, hprj⟩ := List.mem_filterMap.mp ha
    exact T.inj_of_prj hprj ▸ hrows row hrow
  · exact learns_ret (hE _ _ hlater)

variable {mk : Uuid → τ}

/-- An `INSERT` within a transaction. -/
theorem goesE_insert (hadd : ∀ n, R.Add call log (T.inj (mk n)))
    (horder : InOrder (R.Wide call) log (.insert .tx (fun n => T.inj (mk n)) T.clashes)) :
    GoesE R.policy.protocol call (attempt err (insert_into T .tx mk)) log
      (fun log' a => log' =
        ⟨.sql (.insert .tx (fun n => T.inj (mk n)) T.clashes), Except.ok (T.inj a)⟩ :: log)
      fun log' _ => log <:+ log' := by
  refine goesE_attempt (goes_bind (goes_ask ?_))
  intro r
  refine ⟨_, ⟨permits_insert hadd horder, rfl⟩, ?_⟩
  cases r with
  | error e => exact List.suffix_cons _ _
  | ok row =>
      refine goes_ret ?_
      unfold Relation.decodeOne
      dsimp only
      cases hprj : T.prj row with
      | some a =>
          obtain rfl := T.inj_of_prj hprj
          rfl
      | none => exact List.suffix_cons _ _

/-- An `INSERT` on a connection of its own: when it returns, it has just committed the row. -/
theorem learns_insert (hadd : ∀ n, R.Add call log (T.inj (mk n)))
    {Q : Replies → τ → Prop} {E : Replies → ε → Prop}
    (hQ : ∀ a, Q (⟨.sql .commit, Except.ok ()⟩ ::
      ⟨.sql (.insert .tx (fun n => T.inj (mk n)) T.clashes), Except.ok (T.inj a)⟩ :: log) a)
    (hE : ∀ log' e, log <:+ log' → E log' e) :
    LearnsE R call (attempt err (insert_into T .pool mk)) log Q E := by
  have htwo : ∀ x y, log <:+ x :: y :: log := fun x y =>
    (List.suffix_cons y log).trans (List.suffix_cons x _)
  refine learnsE_attempt ⟨fun hw => goes_bind (goes_ask ?_)⟩
  obtain ⟨htaken, hadding⟩ := nothing_in_hand hw
  intro r
  refine ⟨_, ⟨permits_insert hadd (.inr ⟨hadding, .inl htaken⟩), rfl⟩, ?_⟩
  cases r with
  | error e =>
      intro u
      exact ⟨_, ⟨permits_rollback, rfl⟩, htwo _ _, rfl, hE _ _ (htwo _ _)⟩
  | ok row =>
      intro r
      refine ⟨_, ⟨permits_commit, rfl⟩, ?_⟩
      cases r with
      | error e => exact ⟨htwo _ _, rfl, hE _ _ (htwo _ _)⟩
      | ok u =>
          refine goes_ret ⟨htwo _ _, rfl, ?_⟩
          unfold Relation.decodeOne
          dsimp only
          cases hprj : T.prj row with
          | some a =>
              obtain rfl := T.inj_of_prj hprj
              exact hQ a
          | none => exact hE _ _ (htwo _ _)

end Changes

end Learning

end Rights

end Authnz
