/-
A database table under READ COMMITTED, row by row.

A `Slot` is one row through its whole life: the versions committed so far, the
latest first, each with the caller that wrote it, and the row lock, which carries
what its holder will leave there.  Slots are never removed or reordered, so a slot's
index is the row's identity, and the writer of a version plays the part of the
hidden transaction columns of the real table.

A writing statement is not one step.  It fixes the rows it will visit when it
starts (`scan`) and then takes them one at a time (`visit`), waiting for a row
another transaction holds and looking at its WHERE clause again once it gets the
lock.  `SqlOp.write` is the statement taken whole, for results that do not look
inside one; `SqlOp.split` is what it consists of.
-/
import Authnz.Basis.Interleave

namespace Basis

/-- What a row became, and which caller committed that (`none`: there from the start). -/
structure Version (Row : Type) where
  writer : Option Nat
  /-- `none` when the row was deleted. -/
  row : Option Row
  deriving DecidableEq

/-- One row of the table, for good. -/
structure Slot (Row : Type) where
  versions : List (Version Row)
  /-- The caller holding the row lock and what the row becomes when it commits. -/
  lock : Option (Nat × Option Row)
  deriving DecidableEq

abbrev Table (Row : Type) : Type := List (Slot Row)

namespace Slot

variable {Row : Type}

/-- The committed row, if there is one. -/
def current (s : Slot Row) : Option Row := s.versions.head?.bind (·.row)

/-- The row as caller `me` sees it: its own uncommitted work, else what is committed. -/
def view (me : Nat) (s : Slot Row) : Option Row :=
  match s.lock with
  | some (t, r) => if t = me then r else s.current
  | none => s.current

/-- No other caller holds the row. -/
def free (me : Nat) (s : Slot Row) : Bool :=
  match s.lock with
  | some (t, _) => t == me
  | none => true

def hits (me : Nat) (p : Row → Bool) (s : Slot Row) : Bool := (s.view me).any p

def hold (me : Nat) (r : Option Row) (s : Slot Row) : Slot Row := { s with lock := some (me, r) }

/-- One row of an `UPDATE` or `DELETE`: `f` gives the new row, `none` deletes it. -/
def touch (me : Nat) (p : Row → Bool) (f : Row → Option Row) (s : Slot Row) : Slot Row :=
  match s.view me with
  | some r => if p r then s.hold me (f r) else s
  | none => s

/-- What the statement returns for this row. -/
def affected (me : Nat) (p : Row → Bool) (f : Row → Option Row) (s : Slot Row) : List Row :=
  match s.view me with
  | some r => if p r then [(f r).getD r] else []
  | none => []

def commit (me : Nat) (s : Slot Row) : Slot Row :=
  match s.lock with
  | some (t, r) => if t = me then ⟨⟨some me, r⟩ :: s.versions, none⟩ else s
  | none => s

def rollback (me : Nat) (s : Slot Row) : Slot Row :=
  match s.lock with
  | some (t, _) => if t = me then { s with lock := none } else s
  | none => s

/-- A row a transaction has inserted and not yet committed. -/
def fresh (me : Nat) (r : Row) : Slot Row := ⟨[], some (me, some r)⟩

/-- A row that was there from the start. -/
def loaded (r : Row) : Slot Row := ⟨[⟨none, some r⟩], none⟩

/-! ### Reading a slot -/

@[simp] theorem current_hold (me : Nat) (r : Option Row) (s : Slot Row) :
    (s.hold me r).current = s.current := rfl

theorem versions_rollback (me : Nat) (s : Slot Row) : (s.rollback me).versions = s.versions := by
  unfold rollback
  split
  · split <;> rfl
  · rfl

@[simp] theorem current_rollback (me : Nat) (s : Slot Row) : (s.rollback me).current = s.current := by
  rw [current, current, versions_rollback]

@[simp] theorem current_fresh (me : Nat) (r : Row) : (fresh me r).current = none := rfl

@[simp] theorem current_loaded (r : Row) : (loaded r).current = some r := rfl

theorem current_of_versions {s s' : Slot Row} (h : s'.versions = s.versions) :
    s'.current = s.current := by
  rw [current, current, h]

theorem view_of_unlocked {s : Slot Row} (h : s.lock = none) (me : Nat) : s.view me = s.current := by
  simp [view, h]

theorem view_of_own {s : Slot Row} {me : Nat} {r : Option Row} (h : s.lock = some (me, r)) :
    s.view me = r := by
  simp [view, h]

theorem view_of_other {s : Slot Row} {me t : Nat} {r : Option Row} (h : s.lock = some (t, r))
    (hne : t ≠ me) : s.view me = s.current := by
  simp [view, h, hne]

theorem free_iff {s : Slot Row} {me : Nat} :
    s.free me = true ↔ s.lock = none ∨ ∃ r, s.lock = some (me, r) := by
  unfold free
  cases h : s.lock with
  | none => simp
  | some l =>
      obtain ⟨t, r⟩ := l
      simp

theorem commit_of_own {s : Slot Row} {me : Nat} {r : Option Row} (h : s.lock = some (me, r)) :
    s.commit me = ⟨⟨some me, r⟩ :: s.versions, none⟩ := by
  simp [commit, h]

theorem commit_of_not_own {s : Slot Row} {me : Nat} (h : ∀ r, s.lock ≠ some (me, r)) :
    s.commit me = s := by
  unfold commit
  split
  · rename_i t r hl
    split
    · rename_i ht
      exact absurd (by rw [hl, ht]) (h r)
    · rfl
  · rfl

theorem rollback_of_own {s : Slot Row} {me : Nat} {r : Option Row} (h : s.lock = some (me, r)) :
    s.rollback me = { s with lock := none } := by
  simp [rollback, h]

theorem rollback_of_not_own {s : Slot Row} {me : Nat} (h : ∀ r, s.lock ≠ some (me, r)) :
    s.rollback me = s := by
  unfold rollback
  split
  · rename_i t r hl
    split
    · rename_i ht
      exact absurd (by rw [hl, ht]) (h r)
    · rfl
  · rfl

/-- A row comes out of a statement either untouched or held with the new value. -/
theorem touch_cases (me : Nat) (p : Row → Bool) (f : Row → Option Row) (s : Slot Row) :
    (s.touch me p f = s ∧ s.affected me p f = []) ∨
      ∃ r, s.view me = some r ∧ p r = true ∧ s.touch me p f = s.hold me (f r) ∧
        s.affected me p f = [(f r).getD r] := by
  unfold touch affected
  cases hv : s.view me with
  | none => exact .inl ⟨rfl, rfl⟩
  | some r =>
      by_cases hp : p r = true
      · exact .inr ⟨r, rfl, hp, by simp [hp], by simp [hp]⟩
      · exact .inl ⟨by simp [hp], by simp [hp]⟩

end Slot

/-- Only the oldest version was there from the start. -/
def Slot.Rooted {Row : Type} (s : Slot Row) : Prop :=
  ∀ (pre post : List (Version Row)) (v : Option Row),
    s.versions = pre ++ ⟨none, v⟩ :: post → post = []

theorem Slot.Rooted.loaded {Row : Type} (r : Row) : (Slot.loaded r).Rooted := by
  intro pre post v h
  cases pre with
  | nil => exact (List.cons.inj h).2.symm
  | cons x pre => simp [Slot.loaded] at h

theorem Slot.Rooted.of_versions {Row : Type} {s s' : Slot Row} (h : s.Rooted)
    (hv : s'.versions = s.versions) : s'.Rooted := fun _ _ _ he => h _ _ _ (hv.symm.trans he)

theorem Slot.Rooted.commit {Row : Type} {s : Slot Row} (h : s.Rooted) (me : Nat) :
    (s.commit me).Rooted := by
  by_cases hown : ∃ r, s.lock = some (me, r)
  · obtain ⟨r, hr⟩ := hown
    rw [Slot.commit_of_own hr]
    intro pre post v he
    cases pre with
    | nil => simp at he
    | cons x pre => exact h _ _ _ (List.cons.inj he).2
  · rw [Slot.commit_of_not_own fun r hr => hown ⟨r, hr⟩]
    exact h

/-! ### Statements -/

inductive DbError where
  | unique_violation
  | other
  deriving DecidableEq

/-- Where a statement is executed: on a pooled connection of its own, or in the open transaction. -/
inductive Executor where
  | pool
  | tx
  deriving DecidableEq

inductive SqlOp (Row : Type) where
  | begin
  | select (p : Row → Bool)
  /-- An `UPDATE` or `DELETE` taken whole. -/
  | write (ex : Executor) (p : Row → Bool) (f : Row → Option Row)
  /-- The row to insert may use a generated key; `clash` is the table's unique indexes. -/
  | insert (ex : Executor) (mk : Nat → Row) (clash : Row → Row → Bool)
  | commit
  | rollback
  /-- The start of an `UPDATE` or `DELETE`: the rows its snapshot matches. -/
  | scan (p : Row → Bool)
  /-- One of those rows. -/
  | visit (i : Nat) (p : Row → Bool) (f : Row → Option Row)

/-- How the database answers: it does it (with this generated key), or it fails. -/
inductive Outcome where
  | done (key : Nat)
  | fault
  deriving DecidableEq

namespace SqlOp

variable {Row : Type}

def Reply : SqlOp Row → Type
  | .begin => Except DbError Unit
  | .select _ => Except DbError (List Row)
  | .write _ _ _ => Except DbError (List Row)
  | .insert _ _ _ => Except DbError Row
  | .commit => Except DbError Unit
  | .rollback => Unit
  | .scan _ => Except DbError (List Nat)
  | .visit _ _ _ => Except DbError (List Row)

/-- A pooled statement commits by itself. -/
def settle (ex : Executor) (me : Nat) (t : Table Row) : Table Row :=
  match ex with
  | .pool => t.map (Slot.commit me)
  | .tx => t

/-- The rows a statement's snapshot matches. -/
def matching (me : Nat) (p : Row → Bool) (t : Table Row) : List Nat :=
  (List.range t.length).filter fun i => (t[i]?).any (Slot.hits me p)

/-- Another row with the same key is in sight of `me`. -/
def duplicate (me : Nat) (clash : Row → Bool) (t : Table Row) : Bool :=
  t.any fun s => s.free me && (s.view me).any clash

/-- A row held by another caller has, or may get, the same key. -/
def contended (me : Nat) (clash : Row → Bool) (t : Table Row) : Bool :=
  t.any fun s => !s.free me && (s.current.any clash || (s.lock.bind (·.2)).any clash)

def answer (me : Nat) (o : SqlOp Row) (ch : Outcome) (t : Table Row) :
    Option (Table Row × o.Reply) :=
  match o, ch with
  | .begin, .done _ => some (t, .ok ())
  | .select p, .done _ => some (t, .ok ((t.filterMap (Slot.view me)).filter p))
  | .write ex p f, .done _ =>
      if t.all fun s => s.free me || !s.hits me p then
        some (settle ex me (t.map (Slot.touch me p f)), .ok (t.flatMap (Slot.affected me p f)))
      else none
  | .insert ex mk clash, .done key =>
      if duplicate me (clash (mk key)) t then some (t, .error .unique_violation)
      else if contended me (clash (mk key)) t then none
      else some (settle ex me (t ++ [Slot.fresh me (mk key)]), .ok (mk key))
  | .commit, .done _ => some (t.map (Slot.commit me), .ok ())
  | .rollback, _ => some (t.map (Slot.rollback me), ())
  | .scan p, .done _ => some (t, .ok (matching me p t))
  | .visit i p f, .done _ =>
      match t[i]? with
      | some s =>
          if s.free me then some (t.set i (s.touch me p f), .ok (s.affected me p f)) else none
      | none => some (t, .ok [])
  | .begin, .fault => some (t, .error .other)
  | .select _, .fault => some (t, .error .other)
  | .write _ _ _, .fault => some (t, .error .other)
  | .insert _ _ _, .fault => some (t, .error .other)
  | .commit, .fault => some (t.map (Slot.rollback me), .error .other)
  | .scan _, .fault => some (t, .error .other)
  | .visit _ _ _, .fault => some (t, .error .other)

/-! ### What a writing statement consists of -/

/-- The rows of the snapshot, one after the other. -/
def visitAll (p : Row → Bool) (f : Row → Option Row) :
    List Nat → ExceptT DbError (Prog (SqlOp Row) Reply) (List Row)
  | [] => pure []
  | i :: is => do
      let rows ← ExceptT.mk (Prog.op (SqlOp.visit i p f))
      let rest ← visitAll p f is
      return rows ++ rest

/-- A pooled statement is a transaction of its own. -/
def whole {α : Type} (ex : Executor) (body : ExceptT DbError (Prog (SqlOp Row) Reply) α) :
    ExceptT DbError (Prog (SqlOp Row) Reply) α :=
  match ex with
  | .tx => body
  | .pool => ExceptT.mk do
      match ← body.run with
      | .ok a =>
          match ← Prog.op (.commit : SqlOp Row) with
          | .ok _ => return .ok a
          | .error e => return .error e
      | .error e =>
          let _ ← Prog.op (.rollback : SqlOp Row)
          return .error e

/-- The steps an operation takes when other callers may come in between. -/
def split : (o : SqlOp Row) → Prog (SqlOp Row) Reply o.Reply
  | .write ex p f =>
      (whole ex do
        let is ← ExceptT.mk (Prog.op (SqlOp.scan p))
        visitAll p f is).run
  | .insert ex mk clash => (whole ex (ExceptT.mk (Prog.op (SqlOp.insert .tx mk clash)))).run
  | .begin => Prog.op (SqlOp.begin : SqlOp Row)
  | .select p => Prog.op (SqlOp.select p)
  | .commit => Prog.op (SqlOp.commit : SqlOp Row)
  | .rollback => Prog.op (SqlOp.rollback : SqlOp Row)
  | .scan p => Prog.op (SqlOp.scan p)
  | .visit i p f => Prog.op (SqlOp.visit i p f)

end SqlOp

end Basis
