/-
A table in the hands of one caller.

While nobody else writes, a caller can think of the table as two lists of rows: what
is committed, and what it sees itself, which differ by what its open transaction has
done.  A `Desk` is that pair.  A position in it is a row for good, `none` where the
row is not there or no longer, so "the rows from before" is a meaningful phrase
whatever happens to them.

Each statement of `SqlOp` is a function on desks, and the theorems here say that the
table's answers are these functions.
-/
import Mathlib.Data.List.ReduceOption
import Authnz.Basis.ReadCommitted

namespace Basis

structure Desk (Row : Type) where
  committed : List (Option Row)
  seen : List (Option Row)

namespace Desk

variable {Row : Type}

/-- The rows in sight. -/
def rows (d : Desk Row) : List Row := d.seen.reduceOption

/-- What an `UPDATE` or `DELETE` makes of a row's place. -/
def rewrite (p : Row → Bool) (f : Row → Option Row) (x : Option Row) : Option Row :=
  x.bind fun r => if p r then f r else some r

def write (p : Row → Bool) (f : Row → Option Row) (d : Desk Row) : Desk Row :=
  { d with seen := d.seen.map (rewrite p f) }

def insert (r : Row) (d : Desk Row) : Desk Row := ⟨d.committed ++ [none], d.seen ++ [some r]⟩

def commit (d : Desk Row) : Desk Row := ⟨d.seen, d.seen⟩

def rollback (d : Desk Row) : Desk Row := ⟨d.committed, d.committed⟩

/-- A pooled statement commits by itself. -/
def settle : Executor → Desk Row → Desk Row
  | .pool => commit
  | .tx => id

/-- No transaction is open. -/
def Settled (d : Desk Row) : Prop := d.seen = d.committed

@[simp] theorem rewrite_none (p : Row → Bool) (f : Row → Option Row) :
    rewrite p f none = none := rfl

theorem rewrite_hit {p : Row → Bool} {f : Row → Option Row} {r : Row} (h : p r = true) :
    rewrite p f (some r) = f r := by
  simp [rewrite, h]

theorem rewrite_miss {p : Row → Bool} {f : Row → Option Row} {r : Row} (h : p r = false) :
    rewrite p f (some r) = some r := by
  simp [rewrite, h]

theorem settled_commit (d : Desk Row) : d.commit.Settled := rfl

theorem settled_rollback (d : Desk Row) : d.rollback.Settled := rfl

theorem settled_pool (d : Desk Row) : (d.settle .pool).Settled := rfl

theorem mem_rows {d : Desk Row} {r : Row} : r ∈ d.rows ↔ ∃ i : Nat, d.seen[i]? = some (some r) := by
  rw [rows, List.reduceOption_mem_iff, List.mem_iff_getElem?]

end Desk

variable {Row : Type} {me : Nat}

/-- The table, as caller `me` has it in hand. -/
def Table.desk (me : Nat) (t : Table Row) : Desk Row :=
  ⟨t.map Slot.current, t.map (Slot.view me)⟩

namespace Slot

theorem current_commit (me : Nat) (s : Slot Row) : (s.commit me).current = s.view me := by
  by_cases hown : ∃ v, s.lock = some (me, v)
  · obtain ⟨v, hv⟩ := hown
    rw [commit_of_own hv, view_of_own hv]
    rfl
  · rw [commit_of_not_own fun v hv => hown ⟨v, hv⟩]
    cases hl : s.lock with
    | none => rw [view_of_unlocked hl]
    | some l => rw [view_of_other hl fun hme => hown ⟨l.2, by rw [hl, ← hme]⟩]

theorem view_commit (me : Nat) (s : Slot Row) : (s.commit me).view me = s.view me := by
  by_cases hown : ∃ v, s.lock = some (me, v)
  · obtain ⟨v, hv⟩ := hown
    rw [commit_of_own hv, view_of_own hv]
    rfl
  · rw [commit_of_not_own fun v hv => hown ⟨v, hv⟩]

theorem view_rollback (me : Nat) (s : Slot Row) : (s.rollback me).view me = s.current := by
  by_cases hown : ∃ v, s.lock = some (me, v)
  · obtain ⟨v, hv⟩ := hown
    rw [rollback_of_own hv]
    rfl
  · rw [rollback_of_not_own fun v hv => hown ⟨v, hv⟩]
    cases hl : s.lock with
    | none => rw [view_of_unlocked hl]
    | some l => rw [view_of_other hl fun hme => hown ⟨l.2, by rw [hl, ← hme]⟩]

theorem current_touch (me : Nat) (p : Row → Bool) (f : Row → Option Row) (s : Slot Row) :
    (s.touch me p f).current = s.current := by
  rcases s.touch_cases me p f with ⟨h, -⟩ | ⟨r, -, -, h, -⟩ <;> rw [h]
  rfl

theorem view_touch (me : Nat) (p : Row → Bool) (f : Row → Option Row) (s : Slot Row) :
    (s.touch me p f).view me = Desk.rewrite p f (s.view me) := by
  unfold touch
  cases hv : s.view me with
  | none => rw [hv, Desk.rewrite_none]
  | some r =>
      by_cases hp : p r = true
      · rw [Desk.rewrite_hit hp]
        simp [hp, hold, view]
      · simp [hp, hv, Desk.rewrite]

end Slot

namespace Table

theorem desk_commit (me : Nat) (t : Table Row) :
    Table.desk me (t.map (Slot.commit me)) = (t.desk me).commit := by
  simp [desk, Desk.commit, Slot.current_commit, Slot.view_commit]

theorem desk_rollback (me : Nat) (t : Table Row) :
    Table.desk me (t.map (Slot.rollback me)) = (t.desk me).rollback := by
  simp [desk, Desk.rollback, Slot.view_rollback]

theorem desk_write (me : Nat) (p : Row → Bool) (f : Row → Option Row) (t : Table Row) :
    Table.desk me (t.map (Slot.touch me p f)) = (t.desk me).write p f := by
  simp [desk, Desk.write, Slot.current_touch, Slot.view_touch]

theorem desk_insert (me : Nat) (r : Row) (t : Table Row) :
    Table.desk me (t ++ [Slot.fresh me r]) = (t.desk me).insert r := by
  simp [desk, Desk.insert, Slot.fresh, Slot.view, Slot.current]

theorem desk_settle (ex : Executor) (me : Nat) (t : Table Row) :
    Table.desk me (SqlOp.settle ex me t) = (t.desk me).settle ex := by
  cases ex with
  | pool => exact desk_commit me t
  | tx => rfl

/-- A caller that holds nothing has no transaction open. -/
theorem settled_of_idle {t : Table Row} (h : ∀ s ∈ t, ∀ v, s.lock ≠ some (me, v)) :
    (t.desk me).Settled := by
  refine List.map_congr_left fun s hs => ?_
  cases hl : s.lock with
  | none => exact Slot.view_of_unlocked hl me
  | some l => exact Slot.view_of_other hl fun hme => h s hs l.2 (by rw [hl, ← hme])

theorem desk_rows (me : Nat) (t : Table Row) : t.filterMap (Slot.view me) = (t.desk me).rows := by
  simp [desk, Desk.rows, List.reduceOption, List.filterMap_map]

end Table

/-! ### The statements -/

namespace SqlOp

variable {out : Outcome} {t t' : Table Row}

theorem alone_begin {r : Reply (.begin : SqlOp Row)}
    (h : answer me .begin out t = some (t', r)) :
    t' = t ∧ (r = Except.ok () ∨ out = .fault ∧ r = Except.error .other) := by
  cases out <;> cases h
  · exact ⟨rfl, .inl rfl⟩
  · exact ⟨rfl, .inr ⟨rfl, rfl⟩⟩

theorem alone_select {p : Row → Bool} {r : Reply (.select p)}
    (h : answer me (.select p) out t = some (t', r)) :
    t' = t ∧ (r = Except.ok ((t.desk me).rows.filter p) ∨
      out = .fault ∧ r = Except.error .other) := by
  cases out <;> cases h
  · exact ⟨rfl, .inl (by rw [Table.desk_rows])⟩
  · exact ⟨rfl, .inr ⟨rfl, rfl⟩⟩

theorem affected_rows (me : Nat) (p : Row → Bool) (f : Row → Option Row) (t : Table Row) :
    t.flatMap (Slot.affected me p f) =
      ((t.desk me).rows.filter p).map fun r => (f r).getD r := by
  rw [← Table.desk_rows]
  induction t with
  | nil => rfl
  | cons s rest ih =>
      rw [List.flatMap_cons, ih, List.filterMap_cons]
      unfold Slot.affected
      cases s.view me with
      | none => rfl
      | some r => by_cases hp : p r = true <;> simp [hp]

theorem alone_write {ex : Executor} {p : Row → Bool} {f : Row → Option Row}
    {r : Reply (.write ex p f)} (h : answer me (.write ex p f) out t = some (t', r)) :
    (t'.desk me = ((t.desk me).write p f).settle ex ∧
        r = Except.ok (((t.desk me).rows.filter p).map fun r => (f r).getD r)) ∨
      out = .fault ∧ t' = t ∧ r = Except.error .other := by
  cases out with
  | fault =>
      cases h
      exact .inr ⟨rfl, rfl, rfl⟩
  | done key =>
      obtain ⟨-, h⟩ := Option.ite_none_right_eq_some.mp h
      cases h
      exact .inl ⟨by rw [Table.desk_settle, Table.desk_write], by rw [affected_rows]⟩

/-- Nothing in sight has the new row's key. -/
theorem not_duplicate {clash : Row → Bool} (hdup : duplicate me clash t = false)
    (hcon : contended me clash t = false) : ∀ a ∈ (t.desk me).rows, clash a = false := by
  intro a ha
  rw [← Table.desk_rows] at ha
  obtain ⟨s, hs, hv⟩ := List.mem_filterMap.mp ha
  simp only [duplicate, List.any_eq_false, Bool.and_eq_true, not_and, Bool.not_eq_true] at hdup
  simp only [contended, List.any_eq_false, Bool.and_eq_true, not_and, Bool.not_eq_true,
    Bool.or_eq_false_iff, Bool.not_eq_eq_eq_not, Bool.not_true] at hcon
  cases hfree : s.free me with
  | true => simpa [hv] using hdup s hs hfree
  | false =>
      have hc := (hcon s hs hfree).1
      cases hl : s.lock with
      | none => simp [Slot.free, hl] at hfree
      | some l =>
          have hne : l.1 ≠ me := by simpa [Slot.free, hl] using hfree
          rw [Slot.view_of_other hl hne] at hv
          simpa [hv] using hc

theorem duplicate_seen {clash : Row → Bool} (hdup : duplicate me clash t = true) :
    ∃ a ∈ (t.desk me).rows, clash a = true := by
  obtain ⟨s, hs, hd⟩ := List.any_eq_true.mp hdup
  obtain ⟨-, hany⟩ := Bool.and_eq_true_iff.mp hd
  cases hv : s.view me with
  | none => simp [hv] at hany
  | some a =>
      refine ⟨a, ?_, by simpa [hv] using hany⟩
      rw [← Table.desk_rows]
      exact List.mem_filterMap.mpr ⟨s, hs, hv⟩

theorem alone_insert {ex : Executor} {mk : Nat → Row} {clash : Row → Row → Bool}
    {r : Reply (.insert ex mk clash)} (h : answer me (.insert ex mk clash) out t = some (t', r)) :
    (∃ key, out = .done key ∧ (∀ a ∈ (t.desk me).rows, clash (mk key) a = false) ∧
        t'.desk me = ((t.desk me).insert (mk key)).settle ex ∧ r = Except.ok (mk key)) ∨
      (∃ key, out = .done key ∧ (∃ a ∈ (t.desk me).rows, clash (mk key) a = true) ∧ t' = t ∧
        r = Except.error .unique_violation) ∨
      out = .fault ∧ t' = t ∧ r = Except.error .other := by
  cases out with
  | fault =>
      cases h
      exact .inr (.inr ⟨rfl, rfl, rfl⟩)
  | done key =>
      simp only [answer] at h
      split at h
      · rename_i hdup
        cases h
        exact .inr (.inl ⟨key, rfl, duplicate_seen hdup, rfl, rfl⟩)
      · rename_i hdup
        split at h
        · cases h
        · rename_i hcon
          cases h
          exact .inl ⟨key, rfl, not_duplicate (by simpa using hdup) (by simpa using hcon),
            by rw [Table.desk_settle, Table.desk_insert], rfl⟩

theorem alone_commit {r : Reply (.commit : SqlOp Row)}
    (h : answer me .commit out t = some (t', r)) :
    (t'.desk me = (t.desk me).commit ∧ r = Except.ok ()) ∨
      out = .fault ∧ t'.desk me = (t.desk me).rollback ∧ r = Except.error .other := by
  cases out <;> cases h
  · exact .inl ⟨Table.desk_commit me t, rfl⟩
  · exact .inr ⟨rfl, Table.desk_rollback me t, rfl⟩

theorem alone_rollback {r : Reply (.rollback : SqlOp Row)}
    (h : answer me .rollback out t = some (t', r)) : t'.desk me = (t.desk me).rollback := by
  cases out <;> cases h <;> exact Table.desk_rollback me t

end SqlOp

/-! ### What a statement can make of a row -/

/-- The statement turns this row into that one, or into nothing. -/
def SqlOp.Makes : SqlOp Row → Row → Option Row → Prop
  | .write _ p f, old, v => p old = true ∧ f old = v
  | .visit _ p f, old, v => p old = true ∧ f old = v
  | _, _, _ => False

/-- The statement adds this row. -/
def SqlOp.Inserts : SqlOp Row → Row → Prop
  | .insert _ mk _, r => ∃ key, r = mk key
  | _, _ => False

/-- What a statement of caller `me` leaves of a slot. -/
inductive Slot.Worked (me : Nat) (o : SqlOp Row) (s : Slot Row) : Slot Row → Prop
  | same : Worked me o s s
  | commit : Worked me o s (s.commit me)
  | rollback : Worked me o s (s.rollback me)
  | hold {old : Row} {v : Option Row} (hv : s.view me = some old) (h : o.Makes old v) :
      Worked me o s (s.hold me v)
  | settled {old : Row} {v : Option Row} (hv : s.view me = some old) (h : o.Makes old v) :
      Worked me o s ((s.hold me v).commit me)

/-- A slot that was not there before the statement. -/
def Slot.Added (me : Nat) (o : SqlOp Row) (s : Slot Row) : Prop :=
  ∃ a, o.Inserts a ∧ (s = fresh me a ∨ s = (fresh me a).commit me)

/-- The slots stay in place, and one may be added at the end. -/
structure Table.Worked (me : Nat) (o : SqlOp Row) (t t' : Table Row) : Prop where
  old : ∀ {d : Nat} {s : Slot Row}, t[d]? = some s → ∃ s', t'[d]? = some s' ∧ s.Worked me o s'
  new : ∀ {d : Nat} {s' : Slot Row}, t'[d]? = some s' → t.length ≤ d →
    d = t.length ∧ s'.Added me o

theorem Slot.worked_touch (me : Nat) (ex : Executor) (p : Row → Bool) (f : Row → Option Row)
    (s : Slot Row) : s.Worked me (.write ex p f) (s.touch me p f) ∧
      s.Worked me (.write ex p f) ((s.touch me p f).commit me) := by
  rcases s.touch_cases me p f with ⟨h, -⟩ | ⟨r, hv, hp, h, -⟩
  · rw [h]
    exact ⟨.same, .commit⟩
  · rw [h]
    exact ⟨.hold hv ⟨hp, rfl⟩, .settled hv ⟨hp, rfl⟩⟩

namespace SqlOp

variable {out : Outcome} {t t' : Table Row} {o : SqlOp Row}

theorem worked_map {g : Slot Row → Slot Row} (hg : ∀ s : Slot Row, s.Worked me o (g s)) :
    Table.Worked me o t (t.map g) := by
  refine ⟨fun {d s} hs => ⟨g s, by rw [List.getElem?_map, hs]; rfl, hg s⟩, fun {d s'} hs hd => ?_⟩
  rw [List.getElem?_map, List.getElem?_eq_none hd] at hs
  cases hs

theorem worked_append {a : Row} {g : Slot Row → Slot Row} (hg : ∀ s : Slot Row, s.Worked me o (g s))
    (ha : (g (Slot.fresh me a)).Added me o) :
    Table.Worked me o t ((t ++ [Slot.fresh me a]).map g) := by
  refine ⟨fun {d s} hs => ⟨g s, ?_, hg s⟩, fun {d s'} hs hd => ?_⟩
  · rw [List.getElem?_map, List.getElem?_append_left (List.getElem?_eq_some_iff.mp hs).1, hs]
    rfl
  · rw [List.getElem?_map, List.getElem?_append_right hd] at hs
    obtain ⟨x, hx, rfl⟩ := Option.map_eq_some_iff.mp hs
    have hd' : d - t.length = 0 := by
      have hlt := (List.getElem?_eq_some_iff.mp hx).1
      simpa using hlt
    rw [hd'] at hx
    cases hx
    exact ⟨by omega, ha⟩

theorem worked_set {i : Nat} {s s₁ : Slot Row} (hs : t[i]? = some s) (hw : s.Worked me o s₁) :
    Table.Worked me o t (t.set i s₁) := by
  refine ⟨fun {d x} hx => ?_, fun {d x} hx hd => ?_⟩
  · by_cases hd : d = i
    · subst hd
      rw [hs] at hx
      cases hx
      exact ⟨s₁, List.getElem?_set_self (List.getElem?_eq_some_iff.mp hs).1, hw⟩
    · exact ⟨x, by rw [List.getElem?_set_ne (Ne.symm hd), hx], .same⟩
  · have hlt := (List.getElem?_eq_some_iff.mp hx).1
    rw [List.length_set] at hlt
    omega

/-- Every statement keeps the slots in place and may add one. -/
theorem answer_worked {r : o.Reply} (h : answer me o out t = some (t', r)) :
    Table.Worked me o t t' := by
  have hsame : Table.Worked me o t t := by
    have hid : Table.Worked me o t (t.map id) := worked_map fun _ => .same
    rwa [List.map_id] at hid
  cases out with
  | fault =>
      cases o with
      | commit | rollback =>
          cases h
          exact worked_map fun _ => .rollback
      | _ =>
          cases h
          exact hsame
  | done key =>
      cases o with
      | begin | select p | scan p =>
          cases h
          exact hsame
      | commit =>
          cases h
          exact worked_map fun _ => .commit
      | rollback =>
          cases h
          exact worked_map fun _ => .rollback
      | write ex p f =>
          obtain ⟨-, h⟩ := Option.ite_none_right_eq_some.mp h
          cases h
          cases ex with
          | pool =>
              simp only [settle, List.map_map]
              exact worked_map fun s => (s.worked_touch me .pool p f).2
          | tx => exact worked_map fun s => (s.worked_touch me .tx p f).1
      | insert ex mk clash =>
          simp only [answer] at h
          split at h
          · cases h
            exact hsame
          split at h
          · cases h
          cases h
          cases ex with
          | pool => exact worked_append (fun _ => .commit) ⟨_, ⟨key, rfl⟩, .inr rfl⟩
          | tx =>
              have hadd : Table.Worked me (.insert .tx mk clash) t
                  ((t ++ [Slot.fresh me (mk key)]).map id) :=
                worked_append (fun _ => .same) ⟨mk key, ⟨key, rfl⟩, .inl rfl⟩
              rwa [List.map_id] at hadd
      | visit i p f =>
          simp only [answer] at h
          split at h
          · rename_i s hs
            obtain ⟨-, h⟩ := Option.ite_none_right_eq_some.mp h
            cases h
            refine worked_set hs ?_
            rcases s.touch_cases me p f with ⟨he, -⟩ | ⟨a, hv, hp, he, -⟩ <;> rw [he]
            · exact .same
            · exact .hold hv ⟨hp, rfl⟩
          · cases h
            exact hsame

end SqlOp

/-! ### Nobody in the way -/

/-- No other caller holds a row. -/
def Table.Undisturbed (me : Nat) (t : Table Row) : Prop := ∀ s ∈ t, s.free me = true

theorem Slot.Worked.free {o : SqlOp Row} {s s' : Slot Row} (h : s.Worked me o s')
    (hs : s.free me = true) : s'.free me = true := by
  have hcommit : ∀ {x : Slot Row}, x.free me = true → (x.commit me).free me = true := by
    intro x hx
    rcases Slot.free_iff.mp hx with hl | ⟨v, hl⟩
    · rwa [Slot.commit_of_not_own fun v hv => by rw [hl] at hv; cases hv]
    · rw [Slot.commit_of_own hl]
      rfl
  cases h with
  | same => exact hs
  | commit => exact hcommit hs
  | rollback =>
      rcases Slot.free_iff.mp hs with hl | ⟨v, hl⟩
      · rwa [Slot.rollback_of_not_own fun v hv => by rw [hl] at hv; cases hv]
      · rw [Slot.rollback_of_own hl]
        rfl
  | hold => exact Slot.free_iff.mpr (.inr ⟨_, rfl⟩)
  | settled => exact hcommit (Slot.free_iff.mpr (.inr ⟨_, rfl⟩))

theorem Table.Worked.undisturbed {o : SqlOp Row} {t t' : Table Row} (h : t.Worked me o t')
    (ht : t.Undisturbed me) : t'.Undisturbed me := by
  intro s' hs'
  obtain ⟨d, hd⟩ := List.mem_iff_getElem?.mp hs'
  by_cases hlt : d < t.length
  · obtain ⟨s₁, hs₁, hw⟩ := h.old (List.getElem?_eq_getElem hlt)
    obtain rfl : s₁ = s' := Option.some.inj (hs₁.symm.trans hd)
    exact hw.free (ht _ (List.getElem_mem hlt))
  · obtain ⟨-, r, -, rfl | rfl⟩ := h.new hd (Nat.le_of_not_lt hlt)
    · exact Slot.free_iff.mpr (.inr ⟨_, rfl⟩)
    · rw [Slot.commit_of_own rfl]
      rfl

/-- Then no statement has to wait. -/
theorem SqlOp.answer_undisturbed {t : Table Row} (ht : t.Undisturbed me) (o : SqlOp Row)
    (out : Outcome) : ∃ t' r, answer me o out t = some (t', r) ∧ t'.Undisturbed me := by
  have hans : ∃ t' r, answer me o out t = some (t', r) := by
    cases out with
    | fault => cases o <;> exact ⟨_, _, rfl⟩
    | done key =>
        cases o with
        | write ex p f =>
            have hfree : (t.all fun s => s.free me || !s.hits me p) = true := by
              refine List.all_eq_true.mpr fun s hs => ?_
              rw [ht s hs, Bool.true_or]
            exact ⟨_, _, if_pos hfree⟩
        | insert ex mk clash =>
            have hcon : contended me (clash (mk key)) t = false := by
              refine List.any_eq_false.mpr fun s hs => ?_
              rw [ht s hs]
              exact Bool.false_ne_true
            by_cases hdup : duplicate me (clash (mk key)) t = true
            · exact ⟨_, _, if_pos hdup⟩
            · exact ⟨_, _, (if_neg hdup).trans (if_neg (Bool.eq_false_iff.mp hcon))⟩
        | visit i p f =>
            cases hs : t[i]? with
            | none => exact ⟨t, .ok [], by simp only [answer, hs]⟩
            | some s =>
                have hfree := ht s (List.mem_of_getElem? hs)
                exact ⟨t.set i (s.touch me p f), .ok (s.affected me p f),
                  by simp only [answer, hs, if_pos hfree]⟩
        | _ => exact ⟨_, _, rfl⟩
  obtain ⟨t', r, h⟩ := hans
  exact ⟨t', r, h, (answer_worked h).undisturbed ht⟩

/-- A way of reading rows off a slot that nothing `me` does adds to, but writing a row. -/
structure Reading (Row : Type) (me : Nat) where
  reads : Slot Row → Row → Prop
  commit : ∀ {s : Slot Row} {r : Row}, reads (s.commit me) r → reads s r
  rollback : ∀ {s : Slot Row} {r : Row}, reads (s.rollback me) r → reads s r
  hold : ∀ {s : Slot Row} {v : Option Row} {r : Row}, reads (s.hold me v) r → reads s r ∨ v = some r
  fresh : ∀ {a r : Row}, reads (Slot.fresh me a) r → r = a
  seen : ∀ {s : Slot Row} {r : Row}, s.view me = some r → reads s r

namespace Reading

/-- The row as it is committed, or as `me` sees it. -/
def live (Row : Type) (me : Nat) : Reading Row me where
  reads s r := s.current = some r ∨ s.view me = some r
  commit {s r} h := by
    rw [Slot.current_commit, Slot.view_commit, or_self] at h
    exact .inr h
  rollback {s r} h := by
    rw [Slot.current_rollback, Slot.view_rollback, or_self] at h
    exact .inl h
  hold {s v r} h := by
    rw [Slot.current_hold, Slot.view_of_own rfl] at h
    exact h.imp_left .inl
  fresh {a r} h := by
    rw [Slot.current_fresh, Slot.view_of_own rfl] at h
    rcases h with h | h <;> cases h
    rfl
  seen := .inr

/-- The row as it ever was committed, or as `me` sees it. -/
def ever (Row : Type) (me : Nat) : Reading Row me where
  reads s r := (∃ x ∈ s.versions, x.row = some r) ∨ s.view me = some r
  commit {s r} h := by
    rw [Slot.view_commit] at h
    refine Or.elim h ?_ .inr
    rintro ⟨x, hx, hr⟩
    by_cases hown : ∃ v, s.lock = some (me, v)
    · obtain ⟨v, hv⟩ := hown
      rw [Slot.commit_of_own hv] at hx
      rcases List.mem_cons.mp hx with rfl | hx
      · exact .inr (by rw [Slot.view_of_own hv]; exact hr)
      · exact .inl ⟨x, hx, hr⟩
    · rw [Slot.commit_of_not_own fun v hv => hown ⟨v, hv⟩] at hx
      exact .inl ⟨x, hx, hr⟩
  rollback {s r} h := by
    rw [Slot.view_rollback, Slot.versions_rollback] at h
    refine .inl (h.elim id fun hc => ?_)
    obtain ⟨x, hx, hr⟩ := Option.bind_eq_some_iff.mp hc
    exact ⟨x, List.mem_of_mem_head? hx, hr⟩
  hold {s v r} h := by
    rw [Slot.view_of_own rfl] at h
    exact h.imp_left .inl
  fresh {a r} h := by
    rw [Slot.view_of_own rfl] at h
    rcases h with ⟨x, hx, -⟩ | h
    · cases hx
    · cases h
      rfl
  seen := .inr

variable (R : Reading Row me) {o : SqlOp Row} {s s' : Slot Row} {row : Row}

theorem of_worked (h : s.Worked me o s') (hr : R.reads s' row) :
    R.reads s row ∨ ∃ old, s.view me = some old ∧ o.Makes old (some row) := by
  have hhold : ∀ {old : Row} {v : Option Row}, s.view me = some old → o.Makes old v →
      R.reads (s.hold me v) row → R.reads s row ∨
        ∃ old, s.view me = some old ∧ o.Makes old (some row) := by
    intro old v hv hm hr
    rcases R.hold hr with h | rfl
    · exact .inl h
    · exact .inr ⟨old, hv, hm⟩
  cases h with
  | same => exact .inl hr
  | commit => exact .inl (R.commit hr)
  | rollback => exact .inl (R.rollback hr)
  | hold hv hm => exact hhold hv hm hr
  | settled hv hm => exact hhold hv hm (R.commit hr)

theorem of_added (h : s.Added me o) (hr : R.reads s row) : o.Inserts row := by
  obtain ⟨a, ha, rfl | rfl⟩ := h
  · rw [R.fresh hr]
    exact ha
  · rw [R.fresh (R.commit hr)]
    exact ha

/-- A row that can be read now could be read before, or the statement has written it. -/
theorem of_answer {out : Outcome} {t t' : Table Row} {r : o.Reply} {d : Nat}
    (h : SqlOp.answer me o out t = some (t', r)) (hs : t'[d]? = some s') (hr : R.reads s' row) :
    (∃ s, t[d]? = some s ∧ R.reads s row) ∨
      (∃ s old, t[d]? = some s ∧ s.view me = some old ∧ o.Makes old (some row)) ∨
      (d = t.length ∧ o.Inserts row) := by
  have hw := SqlOp.answer_worked h
  cases ht : t[d]? with
  | none =>
      obtain ⟨hd, hadd⟩ := hw.new hs (List.getElem?_eq_none_iff.mp ht)
      exact .inr (.inr ⟨hd, R.of_added hadd hr⟩)
  | some s =>
      obtain ⟨s₁, hs₁, hslot⟩ := hw.old ht
      rw [hs] at hs₁
      cases hs₁
      rcases R.of_worked hslot hr with h | ⟨old, hv, hm⟩
      · exact .inl ⟨s, rfl, h⟩
      · exact .inr (.inl ⟨s, old, rfl, hv, hm⟩)

end Reading

/-- Committed versions stay. -/
theorem Slot.Worked.suffix {o : SqlOp Row} {s s' : Slot Row} (h : s.Worked me o s') :
    ∃ pre, s'.versions = pre ++ s.versions := by
  have hcommit : ∀ x : Slot Row, ∃ pre, (x.commit me).versions = pre ++ x.versions := by
    intro x
    by_cases hown : ∃ v, x.lock = some (me, v)
    · obtain ⟨v, hv⟩ := hown
      exact ⟨[⟨some me, v⟩], by rw [Slot.commit_of_own hv]; rfl⟩
    · exact ⟨[], by rw [Slot.commit_of_not_own fun v hv => hown ⟨v, hv⟩]; rfl⟩
  cases h with
  | same => exact ⟨[], rfl⟩
  | commit => exact hcommit s
  | rollback => exact ⟨[], by rw [Slot.versions_rollback]; rfl⟩
  | hold => exact ⟨[], rfl⟩
  | settled => exact hcommit _

/-- Outside a transaction of its own, a caller that has none open leaves none open. -/
def SqlOp.Pooled : SqlOp Row → Prop
  | .write .tx _ _ => False
  | .insert .tx _ _ => False
  | .visit _ _ _ => False
  | _ => True

theorem SqlOp.Pooled.settled {o : SqlOp Row} (ho : o.Pooled) {out : Outcome} {t t' : Table Row}
    {r : o.Reply} (h : answer me o out t = some (t', r)) (ht : (t.desk me).Settled) :
    (t'.desk me).Settled := by
  have hsame : t' = t → (t'.desk me).Settled := fun heq => heq ▸ ht
  cases o with
  | begin => exact hsame (alone_begin h).1
  | select p => exact hsame (alone_select h).1
  | write ex p f =>
      cases ex with
      | tx => exact ho.elim
      | pool =>
          rcases alone_write h with ⟨hd, -⟩ | ⟨-, heq, -⟩
          · rw [hd]
            exact Desk.settled_pool _
          · exact hsame heq
  | insert ex mk clash =>
      cases ex with
      | tx => exact ho.elim
      | pool =>
          rcases alone_insert h with ⟨key, -, -, hd, -⟩ | ⟨-, -, -, heq, -⟩ | ⟨-, heq, -⟩
          · rw [hd]
            exact Desk.settled_pool _
          · exact hsame heq
          · exact hsame heq
  | commit =>
      rcases alone_commit h with ⟨hd, -⟩ | ⟨-, hd, -⟩ <;> rw [hd]
      · exact Desk.settled_commit _
      · exact Desk.settled_rollback _
  | rollback =>
      rw [alone_rollback h]
      exact Desk.settled_rollback _
  | scan p => exact hsame (by cases out <;> cases h <;> rfl)
  | visit i p f => exact ho.elim

end Basis
