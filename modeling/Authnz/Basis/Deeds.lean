/-
What a caller has done to a table, worked out from its replies.

A caller's deeds are those of its open transaction and those it has committed.  They
are a fold over the replies, so a program is walked through them like through any
protocol.  `Table.Accounts` says that they are right, in both directions: there is a
deed behind whatever the caller holds or has written in the table, and something in
the table for every deed.
-/
import Mathlib.Logic.Relation
import Authnz.Basis.Warrants

namespace Basis

/-! ### What replies come to -/

section Folding

variable {Op : Type} {Reply : Op → Type} {Call α Ch σ Env Phase : Type}
  (step : Phase → (o : Op) → Reply o → Phase) (start : Phase)

/-- What the replies come to, the earliest first. -/
def Log.fold : Log Op Reply → Phase
  | [] => start
  | ⟨o, r⟩ :: past => step (Log.fold past) o r

/-- The protocol whose phase is what the replies come to. -/
def Protocol.folding (Final : Call → Phase → α → Prop) : Protocol Op Reply Call α where
  Phase := Phase
  start _ := start
  Step _ ph o r ph' := ph' = step ph o r
  Final := Final

variable {step start} {Final : Call → Phase → α → Prop}

/-- What operations of one kind keep true of a phase, a program of theirs keeps. -/
theorem Protocol.folding_uses {A : Op → Prop} {I : Phase → Prop} {β : Type} {c : Call}
    {p : Prog Op Reply β} (hp : p.Uses A)
    (hstep : ∀ ph (o : Op) (r : Reply o), A o → I ph → I (step ph o r)) {ph : Phase} (h : I ph) :
    (folding step start Final).Walks c p ph fun ph' _ => I ph' := by
  induction p generalizing ph with
  | ret b => exact h
  | ask o k ih => exact fun r => ⟨_, rfl, ih r (hp.2 r) (hstep ph o r hp.1 h)⟩

/-- What every operation keeps true, any program keeps. -/
theorem Protocol.folding_keeps {I : Phase → Prop} {β : Type} {c : Call} {p : Prog Op Reply β}
    (hstep : ∀ ph (o : Op) (r : Reply o), I ph → I (step ph o r)) {ph : Phase} (h : I ph) :
    (folding step start Final).Walks c p ph fun ph' _ => I ph' := by
  induction p generalizing ph with
  | ret b => exact h
  | ask o k ih => exact fun r => ⟨_, rfl, ih r (hstep ph o r h)⟩

/-- A call that follows the protocol answers as its replies allow. -/
theorem Protocol.run_folding [hreply : ∀ o, Nonempty (Reply o)]
    {S : System Op Reply Ch σ Call Env α}
    (hcode : ∀ c, (folding step start Final).Follows c (S.code c)) {s₀ : σ}
    {evs : List (Event Ch Call Env)} {cfg : Config Op Reply σ Call α}
    (hrun : S.run ⟨s₀, []⟩ evs = some cfg) {i : Nat} {call : Call} {a : α}
    (hcall : cfg.call i = some call) (hres : cfg.result i = some a) :
    Final call (Log.fold step start (cfg.log i)) a := by
  let π : Policy Op Reply Call α :=
    ⟨fun _ _ _ => True, fun call log a => Final call (Log.fold step start log) a⟩
  have hwalks : ∀ (c : Call) (p : Prog Op Reply α) (log : Log Op Reply),
      (folding step start Final).Walks c p (Log.fold step start log) (Final c) →
        π.protocol.Walks c p log (π.Answers c) := by
    intro c p
    induction p with
    | ret a => exact fun log h => h
    | ask o k ih =>
        intro log h r
        obtain ⟨ph', rfl, hrest⟩ := h r
        exact ⟨⟨o, r⟩ :: log, ⟨trivial, rfl⟩, ih r (⟨o, r⟩ :: log) hrest⟩
  have hupheld : π.Upheld cfg ∧ True := Policy.run_upheld (J := fun _ => True)
    (fun c => hwalks c _ [] (hcode c)) trivial (fun _ _ => trivial) hrun
  exact hupheld.1.answers hcall hres

end Folding

/-! ### Deeds -/

variable {Row : Type}

/-- Something a statement has done to a row. -/
inductive Doing (Row : Type) where
  /-- A row came back from an `INSERT` of what `mk` makes of a key. -/
  | added (mk : Nat → Row) (row : Row)
  /-- A row was taken by an `UPDATE` or `DELETE` with this condition, which returned `row`. -/
  | changed (p : Row → Bool) (f : Row → Option Row) (row : Row)
  /-- A row was taken by such a statement that committed at once. -/
  | rewrote (p : Row → Bool)

namespace Doing

/-- What came back is what the statement inserts, or makes of a row. -/
def Real : Doing Row → Prop
  | .added mk row => ∃ n, row = mk n
  | .changed p f row => ∃ r, p r = true ∧ row = (f r).getD r
  | .rewrote _ => True

/-- There was a row before. -/
def Alters : Doing Row → Prop
  | .added _ _ => False
  | _ => True

/-- One row comes of the other by changes the caller may make, one after the other. -/
def Reaches (make : Row → Option Row → Prop) : Row → Row → Prop :=
  Relation.ReflTransGen fun a b => make a (some b)

/-- The deed can be the last that led to this value of a row, from the committed row before it,
`none` if there was none. -/
def Leaves (make : Row → Option Row → Prop) : Doing Row → Option (Option Row) → Option Row → Prop
  | .added mk row, none, _ => ∃ n, row = mk n
  | .changed p f row, some (some r₀), v =>
      ∃ r, Reaches make r₀ r ∧ p r = true ∧ row = (f r).getD r ∧ make r v
  | .rewrote p, some (some r₀), v => ∃ r, Reaches make r₀ r ∧ p r = true ∧ make r v
  | _, _, _ => False

variable {make make' : Row → Option Row → Prop} {x : Doing Row} {past : Option (Option Row)}
  {v : Option Row}

theorem Leaves.mono (hmake : ∀ r v, make r v → make' r v) (h : x.Leaves make past v) :
    x.Leaves make' past v := by
  have hreaches : ∀ {r₀ r}, Reaches make r₀ r → Reaches make' r₀ r := fun hr =>
    Relation.ReflTransGen.mono (fun a b => hmake a (some b)) _ _ hr
  cases x with
  | added mk row => cases past <;> exact h
  | changed p f row =>
      rcases past with _ | _ | r₀
      · exact h
      · exact h
      · obtain ⟨r, hr₀, hr, hrow, hm⟩ := h
        exact ⟨r, hreaches hr₀, hr, hrow, hmake r v hm⟩
  | rewrote p =>
      rcases past with _ | _ | r₀
      · exact h
      · exact h
      · obtain ⟨r, hr₀, hr, hm⟩ := h
        exact ⟨r, hreaches hr₀, hr, hmake r v hm⟩

theorem Leaves.real (h : x.Leaves make past v) : x.Real := by
  cases x with
  | added mk row =>
      cases past with
      | none => exact h
      | some r => exact h.elim
  | changed p f row =>
      rcases past with _ | _ | r₀
      · exact h.elim
      · exact h.elim
      · obtain ⟨r, -, hr, hrow, -⟩ := h
        exact ⟨r, hr, hrow⟩
  | rewrote p => trivial

/-- What a deed has left as a row comes of the row before, if there was one. -/
theorem Leaves.reached {b : Row} (h : x.Leaves make past (some b))
    (hnew : ∀ mk row, x ≠ .added mk row) : ∃ r₀, past = some (some r₀) ∧ Reaches make r₀ b := by
  cases x with
  | added mk row => exact absurd rfl (hnew mk row)
  | changed p f row =>
      rcases past with _ | _ | r₀
      · exact h.elim
      · exact h.elim
      · obtain ⟨r, hr₀, -, -, hm⟩ := h
        exact ⟨r₀, rfl, hr₀.tail hm⟩
  | rewrote p =>
      rcases past with _ | _ | r₀
      · exact h.elim
      · exact h.elim
      · obtain ⟨r, hr₀, -, hm⟩ := h
        exact ⟨r₀, rfl, hr₀.tail hm⟩

end Doing

/-- What a caller has done so far. -/
structure Deeds (Row : Type) where
  /-- In the open transaction. -/
  opened : List (Doing Row)
  /-- Committed. -/
  kept : List (Doing Row)

namespace Deeds

/-- Nothing done yet. -/
def blank : Deeds Row := ⟨[], []⟩

def add (new : Nat → Row) (row : Row) (l : Deeds Row) : Deeds Row :=
  ⟨l.opened ++ [.added new row], l.kept⟩

def change (p : Row → Bool) (f : Row → Option Row) (rows : List Row) (l : Deeds Row) : Deeds Row :=
  ⟨l.opened ++ rows.map (.changed p f), l.kept⟩

def rewrite (p : Row → Bool) (l : Deeds Row) : Deeds Row := ⟨l.opened ++ [.rewrote p], l.kept⟩

def settle (l : Deeds Row) : Deeds Row := ⟨[], l.opened ++ l.kept⟩

def drop (l : Deeds Row) : Deeds Row := ⟨[], l.kept⟩

/-- The deeds after a statement, by its reply. -/
def enter (l : Deeds Row) : (q : SqlOp Row) → q.Reply → Deeds Row
  | .commit, Except.ok _ => l.settle
  | .commit, Except.error _ => l.drop
  | .rollback, _ => l.drop
  | .insert _ new _, Except.ok row => l.add new row
  | .visit _ p f, Except.ok rows => l.change p f rows
  | _, _ => l

theorem not_added_change {l : Deeds Row} {p : Row → Bool} {f : Row → Option Row} {rows : List Row}
    (h : ∀ mk row, .added mk row ∉ l.opened) (mk : Nat → Row) (row : Row) :
    .added mk row ∉ (l.change p f rows).opened := by
  intro hx
  rcases List.mem_append.mp hx with hx | hx
  · exact h mk row hx
  · obtain ⟨a, -, ha⟩ := List.mem_map.mp hx
    cases ha

end Deeds

/-! ### The table beside a caller's deeds -/

/-- Another caller's step, as caller `k` sees it. -/
structure Table.Apart (k : Nat) (t t' : Table Row) : Prop where
  held : ∀ {d : Nat} {s : Slot Row} {v : Option Row}, s.lock = some (k, v) →
    (t'[d]? = some s ↔ t[d]? = some s)
  versions : ∀ {d : Nat} {s' : Slot Row} {pre post : List (Version Row)} {x : Version Row},
    t'[d]? = some s' → s'.versions = pre ++ x :: post → x.writer = some k →
    ∃ s pre', t[d]? = some s ∧ s.versions = pre' ++ x :: post
  grows : ∀ {d : Nat} {s : Slot Row}, t[d]? = some s →
    ∃ s' pre, t'[d]? = some s' ∧ s'.versions = pre ++ s.versions

theorem Table.Apart.trans {k : Nat} {t t' t'' : Table Row} (h : t.Apart k t')
    (h' : t'.Apart k t'') : t.Apart k t'' where
  held hl := (h'.held hl).trans (h.held hl)
  versions hs hv hx := by
    obtain ⟨s, pre, hs', hv'⟩ := h'.versions hs hv hx
    exact h.versions hs' hv' hx
  grows hs := by
    obtain ⟨s', pre, hs', hv⟩ := h.grows hs
    obtain ⟨s'', pre', hs'', hv'⟩ := h'.grows hs'
    exact ⟨s'', pre' ++ pre, hs'', by rw [hv', hv, List.append_assoc]⟩

/-- A caller's turn at each row, and rows it has added. -/
theorem Table.Apart.of_turns {me k : Nat} {t t' : Table Row} (hk : k ≠ me)
    (hold : ∀ {d : Nat} {s : Slot Row}, t[d]? = some s → ∃ s', t'[d]? = some s' ∧ s.Turn me s')
    (hnew : ∀ {d : Nat} {s' : Slot Row}, t'[d]? = some s' →
      (∃ s, t[d]? = some s ∧ s.Turn me s') ∨ ∃ r, s' = Slot.fresh me r) : t.Apart k t' where
  held {d s v} hl := by
    constructor
    · intro hs
      rcases hnew hs with ⟨s', hs', hturn⟩ | ⟨r, rfl⟩
      · obtain rfl := hturn.held_before hl hk
        exact hs'
      · exact absurd (Prod.mk.inj (Option.some.inj hl)).1.symm hk
    · intro hs
      obtain ⟨s', hs', hturn⟩ := hold hs
      obtain rfl := hturn.of_held hl hk
      exact hs'
  versions {d s' pre post x} hs hv hx := by
    rcases hnew hs with ⟨s, hs', hturn⟩ | ⟨r, rfl⟩
    · rcases hturn.versions with hsame | ⟨v, -, rfl⟩
      · exact ⟨s, pre, hs', by rw [← hsame, hv]⟩
      · rcases pre with _ | ⟨y, pre⟩
        · obtain ⟨rfl, -⟩ := List.cons.inj hv
          exact absurd (Option.some.inj hx).symm hk
        · exact ⟨s, pre, hs', (List.cons.inj hv).2⟩
    · cases pre <;> cases hv
  grows {d s} hs := by
    obtain ⟨s', hs', hturn⟩ := hold hs
    obtain ⟨pre, hpre⟩ := hturn.suffix
    exact ⟨s', pre, hs', hpre⟩

theorem Effect.apart {me k : Nat} {t t' : Table Row} (h : Effect me t t') (hk : k ≠ me) :
    t.Apart k t' :=
  .of_turns hk h.old fun hs => (h.new hs).imp_right fun ⟨_, r, hr, _⟩ => ⟨r, hr⟩

/-- **The deeds of caller `k` account for what it has in the table.** -/
structure Table.Accounts (make : Row → Option Row → Prop) (k : Nat) (l : Deeds Row)
    (t : Table Row) : Prop where
  held : ∀ {d : Nat} {s : Slot Row} {v : Option Row}, t[d]? = some s → s.lock = some (k, v) →
    ∃ x ∈ l.opened, x.Leaves make s.past v
  written : ∀ {d : Nat} {s : Slot Row} {pre post : List (Version Row)} {x : Version Row},
    t[d]? = some s → s.versions = pre ++ x :: post → x.writer = some k →
    ∃ y ∈ l.kept, y.Leaves make (post.head?.map (·.row)) x.row
  adding : ∀ {mk : Nat → Row} {row : Row}, .added mk row ∈ l.opened →
    ∃ (d : Nat) (s : Slot Row), t[d]? = some s ∧ s.versions = [] ∧ s.lock = some (k, some row)
  added : ∀ {mk : Nat → Row} {row : Row}, .added mk row ∈ l.kept →
    ∃ (d : Nat) (s : Slot Row), t[d]? = some s ∧ s.versions.getLast? = some ⟨some k, some row⟩
  changing : ∀ {x : Doing Row}, x ∈ l.opened → x.Alters → ∃ d v, t.Locked k d v
  changed : ∀ {y : Doing Row}, y ∈ l.kept → y.Alters →
    ∃ (d : Nat) (s : Slot Row) (x : Version Row), t[d]? = some s ∧ x ∈ s.versions ∧
      x.writer = some k

namespace Table.Accounts

variable {make make' : Row → Option Row → Prop} {k me : Nat} {l l' : Deeds Row} {t t' : Table Row}

theorem start (rows : List Row) : Table.Accounts make k .blank (rows.map Slot.loaded) where
  held {d s v} hs hl := by
    rw [List.getElem?_map] at hs
    obtain ⟨r, -, rfl⟩ := Option.map_eq_some_iff.mp hs
    cases hl
  written {d s pre post x} hs hv hx := by
    rw [List.getElem?_map] at hs
    obtain ⟨r, -, rfl⟩ := Option.map_eq_some_iff.mp hs
    have hmem : x ∈ (Slot.loaded r).versions := by
      rw [hv]
      exact List.mem_append_right _ List.mem_cons_self
    obtain rfl := List.mem_singleton.mp hmem
    cases hx
  adding h := (List.not_mem_nil h).elim
  added h := (List.not_mem_nil h).elim
  changing h _ := (List.not_mem_nil h).elim
  changed h _ := (List.not_mem_nil h).elim

theorem mono (h : t.Accounts make k l) (hmake : ∀ r v, make r v → make' r v) :
    t.Accounts make' k l where
  held hs hl := by
    obtain ⟨x, hx, hleaves⟩ := h.held hs hl
    exact ⟨x, hx, hleaves.mono hmake⟩
  written hs hv hw := by
    obtain ⟨y, hy, hleaves⟩ := h.written hs hv hw
    exact ⟨y, hy, hleaves.mono hmake⟩
  adding := h.adding
  added := h.added
  changing := h.changing
  changed := h.changed

/-- So they do after other callers' steps. -/
theorem apart (h : t.Accounts make k l) (ha : t.Apart k t') : t'.Accounts make k l where
  held hs hl := h.held ((ha.held hl).mp hs) hl
  written hs hv hx := by
    obtain ⟨s, pre, hs', hv'⟩ := ha.versions hs hv hx
    exact h.written hs' hv' hx
  adding hx := by
    obtain ⟨d, s, hs, hv, hl⟩ := h.adding hx
    exact ⟨d, s, (ha.held hl).mpr hs, hv, hl⟩
  added hx := by
    obtain ⟨d, s, hs, hlast⟩ := h.added hx
    obtain ⟨s', pre, hs', hv⟩ := ha.grows hs
    refine ⟨d, s', hs', ?_⟩
    rw [hv, List.getLast?_append, hlast]
    rfl
  changing hx halters := by
    obtain ⟨d, v, s, hs, hl⟩ := h.changing hx halters
    exact ⟨d, v, s, (ha.held hl).mpr hs, hl⟩
  changed hy halters := by
    obtain ⟨d, s, x, hs, hmem, hw⟩ := h.changed hy halters
    obtain ⟨s', pre, hs', hv⟩ := ha.grows hs
    exact ⟨d, s', x, hs', by rw [hv]; exact List.mem_append_right _ hmem, hw⟩

/-- What the caller has in the table after a step that commits nothing, if it held this before. -/
theorem uncommitted (h : t.Accounts make k l) (hkept : l'.kept = l.kept)
    (hversions : ∀ {d : Nat} {s' : Slot Row}, t'[d]? = some s' → s'.versions = [] ∨
      ∃ s, t[d]? = some s ∧ s'.versions = s.versions)
    (hgrows : ∀ {d : Nat} {s : Slot Row}, t[d]? = some s →
      ∃ s', t'[d]? = some s' ∧ s'.versions = s.versions)
    (hheld : ∀ {d : Nat} {s : Slot Row} {v : Option Row}, t'[d]? = some s → s.lock = some (k, v) →
      ∃ x ∈ l'.opened, x.Leaves make s.past v)
    (hadding : ∀ {mk : Nat → Row} {row : Row}, .added mk row ∈ l'.opened →
      ∃ (d : Nat) (s : Slot Row), t'[d]? = some s ∧ s.versions = [] ∧ s.lock = some (k, some row))
    (hchanging : ∀ {x : Doing Row}, x ∈ l'.opened → x.Alters → ∃ d v, t'.Locked k d v) :
    t'.Accounts make k l' where
  held := hheld
  written {d s' pre post x} hs hv hx := by
    rcases hversions hs with hnil | ⟨s, hs', hsame⟩
    · rw [hnil] at hv
      cases pre <;> cases hv
    · rw [hkept]
      exact h.written hs' (hsame.symm.trans hv) hx
  adding := hadding
  added hx := by
    rw [hkept] at hx
    obtain ⟨d, s, hs, hlast⟩ := h.added hx
    obtain ⟨s', hs', hv⟩ := hgrows hs
    exact ⟨d, s', hs', by rw [hv, hlast]⟩
  changing := hchanging
  changed hy halters := by
    rw [hkept] at hy
    obtain ⟨d, s, x, hs, hmem, hw⟩ := h.changed hy halters
    obtain ⟨s', hs', hv⟩ := hgrows hs
    exact ⟨d, s', x, hs', by rw [hv]; exact hmem, hw⟩

theorem settle (h : t.Accounts make me l) :
    Table.Accounts make me l.settle (t.map (Slot.commit me)) where
  held {d s v} hs hl := by
    rw [List.getElem?_map] at hs
    obtain ⟨s₀, -, rfl⟩ := Option.map_eq_some_iff.mp hs
    by_cases hown : ∃ u, s₀.lock = some (me, u)
    · obtain ⟨u, hu⟩ := hown
      rw [Slot.commit_of_own hu] at hl
      cases hl
    · rw [Slot.commit_of_not_own fun u hu => hown ⟨u, hu⟩] at hl
      exact absurd ⟨v, hl⟩ hown
  written {d s pre post x} hs hv hx := by
    rw [List.getElem?_map] at hs
    obtain ⟨s₀, hs₀, rfl⟩ := Option.map_eq_some_iff.mp hs
    have hold : ∀ {pre' : List (Version Row)}, s₀.versions = pre' ++ x :: post →
        ∃ y ∈ l.settle.kept, y.Leaves make (post.head?.map (·.row)) x.row := by
      intro pre' hv'
      obtain ⟨y, hy, hleaves⟩ := h.written hs₀ hv' hx
      exact ⟨y, List.mem_append_right _ hy, hleaves⟩
    by_cases hown : ∃ u, s₀.lock = some (me, u)
    · obtain ⟨u, hu⟩ := hown
      rw [Slot.commit_of_own hu] at hv
      rcases pre with _ | ⟨y, pre⟩
      -- what it held is the new version
      · obtain ⟨rfl, rfl⟩ := List.cons.inj hv
        obtain ⟨y, hy, hleaves⟩ := h.held hs₀ hu
        exact ⟨y, List.mem_append_left _ hy, hleaves⟩
      · exact hold (List.cons.inj hv).2
    · rw [Slot.commit_of_not_own fun u hu => hown ⟨u, hu⟩] at hv
      exact hold hv
  adding hx := (List.not_mem_nil hx).elim
  added {mk row} hx := by
    rcases List.mem_append.mp hx with hx | hx
    · obtain ⟨d, s, hs, hv, hl⟩ := h.adding hx
      refine ⟨d, s.commit me, by rw [List.getElem?_map, hs, Option.map_some], ?_⟩
      rw [Slot.commit_of_own hl, hv]
      rfl
    · obtain ⟨d, s, hs, hlast⟩ := h.added hx
      obtain ⟨pre, hpre⟩ := Slot.Turn.commit_suffix me s
      refine ⟨d, s.commit me, by rw [List.getElem?_map, hs, Option.map_some], ?_⟩
      rw [hpre, List.getLast?_append, hlast]
      rfl
  changing hx _ := (List.not_mem_nil hx).elim
  changed hy halters := by
    rcases List.mem_append.mp hy with hy | hy
    · obtain ⟨d, v, s, hs, hl⟩ := h.changing hy halters
      refine ⟨d, s.commit me, ⟨some me, v⟩, by rw [List.getElem?_map, hs, Option.map_some], ?_, rfl⟩
      rw [Slot.commit_of_own hl]
      exact List.mem_cons_self
    · obtain ⟨d, s, x, hs, hmem, hw⟩ := h.changed hy halters
      obtain ⟨pre, hpre⟩ := Slot.Turn.commit_suffix me s
      refine ⟨d, s.commit me, x, by rw [List.getElem?_map, hs, Option.map_some], ?_, hw⟩
      rw [hpre]
      exact List.mem_append_right _ hmem

theorem drop (h : t.Accounts make me l) :
    Table.Accounts make me l.drop (t.map (Slot.rollback me)) := by
  have hget : ∀ {d : Nat} {s : Slot Row}, (t.map (Slot.rollback me))[d]? = some s →
      ∃ s₀, t[d]? = some s₀ ∧ s₀.rollback me = s := by
    intro d s hs
    rw [List.getElem?_map] at hs
    exact Option.map_eq_some_iff.mp hs
  refine h.uncommitted rfl ?_ ?_ ?_ (fun hx => (List.not_mem_nil hx).elim)
    fun hx _ => (List.not_mem_nil hx).elim
  · intro d s' hs
    obtain ⟨s₀, hs₀, rfl⟩ := hget hs
    exact .inr ⟨s₀, hs₀, Slot.versions_rollback me s₀⟩
  · intro d s hs
    exact ⟨s.rollback me, by rw [List.getElem?_map, hs, Option.map_some],
      Slot.versions_rollback me s⟩
  · intro d s v hs hl
    obtain ⟨s₀, -, rfl⟩ := hget hs
    by_cases hown : ∃ u, s₀.lock = some (me, u)
    · obtain ⟨u, hu⟩ := hown
      rw [Slot.rollback_of_own hu] at hl
      cases hl
    · rw [Slot.rollback_of_not_own fun u hu => hown ⟨u, hu⟩] at hl
      exact absurd ⟨v, hl⟩ hown

theorem insert (h : t.Accounts make me l) {mk : Nat → Row} (n : Nat) :
    Table.Accounts make me (l.add mk (mk n)) (t ++ [Slot.fresh me (mk n)]) := by
  have hgrows : ∀ {d : Nat} {s : Slot Row}, t[d]? = some s →
      (t ++ [Slot.fresh me (mk n)])[d]? = some s := fun hs => by
    rw [List.getElem?_append_left (List.getElem?_eq_some_iff.mp hs).1, hs]
  have hnew : (t ++ [Slot.fresh me (mk n)])[t.length]? = some (Slot.fresh me (mk n)) :=
    List.getElem?_concat_length
  refine h.uncommitted rfl ?_ (fun hs => ⟨_, hgrows hs, rfl⟩) ?_ ?_ ?_
  · intro d s hs
    rcases get_snoc_cases hs with ⟨-, rfl⟩ | hold
    · exact .inl rfl
    · exact .inr ⟨s, hold, rfl⟩
  · intro d s v hs hl
    rcases get_snoc_cases hs with ⟨-, rfl⟩ | hold
    · exact ⟨.added mk (mk n), List.mem_append_right _ List.mem_cons_self, n, rfl⟩
    · obtain ⟨x, hx, hleaves⟩ := h.held hold hl
      exact ⟨x, List.mem_append_left _ hx, hleaves⟩
  · intro mk' row hx
    rcases List.mem_append.mp hx with hx | hx
    · obtain ⟨d, s, hs, hv, hl⟩ := h.adding hx
      exact ⟨d, s, hgrows hs, hv, hl⟩
    · cases List.mem_singleton.mp hx
      exact ⟨t.length, Slot.fresh me (mk n), hnew, rfl, rfl⟩
  · intro x hx halters
    rcases List.mem_append.mp hx with hx | hx
    · obtain ⟨d, v, s, hs, hl⟩ := h.changing hx halters
      exact ⟨d, v, s, hgrows hs, hl⟩
    · cases List.mem_singleton.mp hx
      exact halters.elim

/-- Taking a row that was there before the transaction. -/
theorem hold (h : t.Accounts make me l) (hnone : ∀ mk row, .added mk row ∉ l.opened) {i : Nat}
    {s : Slot Row} {a : Row} {p : Row → Bool} {f : Row → Option Row} (hs : t[i]? = some s)
    (hfree : s.free me = true) (hview : s.view me = some a) (hp : p a = true)
    (hmake : make a (f a)) :
    Table.Accounts make me (l.change p f [(f a).getD a]) (t.set i (s.hold me (f a))) := by
  have hself : (t.set i (s.hold me (f a)))[i]? = some (s.hold me (f a)) :=
    List.getElem?_set_self (List.getElem?_eq_some_iff.mp hs).1
  have hlast : .changed p f ((f a).getD a) ∈ (l.change p f [(f a).getD a]).opened :=
    List.mem_append_right _ List.mem_cons_self
  refine h.uncommitted rfl ?_ ?_ ?_ ?_ ?_
  · intro d s' hs'
    rcases get_set_cases hs' with ⟨rfl, rfl⟩ | ⟨-, hold⟩
    · exact .inr ⟨s, hs, rfl⟩
    · exact .inr ⟨s', hold, rfl⟩
  · intro d s' hs'
    by_cases hd : i = d
    · subst hd
      obtain rfl := Option.some.inj (hs.symm.trans hs')
      exact ⟨_, hself, rfl⟩
    · exact ⟨s', by rw [List.getElem?_set_ne hd, hs'], rfl⟩
  · intro d s' v hs' hl
    rcases get_set_cases hs' with ⟨rfl, rfl⟩ | ⟨-, hold⟩
    · obtain ⟨-, rfl⟩ := Prod.mk.inj (Option.some.inj hl)
      refine ⟨_, hlast, ?_⟩
      have hpast : ∃ r₀, s.past = some (some r₀) ∧ Doing.Reaches make r₀ a := by
        rcases Slot.free_iff.mp hfree with hl | ⟨u, hl⟩
        · rw [Slot.view_of_unlocked hl] at hview
          exact ⟨a, Slot.past_of_current hview, .refl⟩
        -- what it holds it has changed before
        · rw [Slot.view_of_own hl] at hview
          subst hview
          obtain ⟨x, hx, hleaves⟩ := h.held hs hl
          exact hleaves.reached fun mk row heq => hnone mk row (heq ▸ hx)
      obtain ⟨r₀, hr₀, hreaches⟩ := hpast
      change Doing.Leaves make _ s.past _
      rw [hr₀]
      exact ⟨a, hreaches, hp, rfl, hmake⟩
    · obtain ⟨x, hx, hleaves⟩ := h.held hold hl
      exact ⟨x, List.mem_append_left _ hx, hleaves⟩
  · exact fun {mk row} hx => absurd hx (Deeds.not_added_change hnone mk row)
  · intro x hx halters
    rcases List.mem_append.mp hx with hx | hx
    · obtain ⟨d, v, s', hs', hl⟩ := h.changing hx halters
      by_cases hd : i = d
      · exact ⟨i, f a, _, hself, rfl⟩
      · exact ⟨d, v, s', by rw [List.getElem?_set_ne hd, hs'], hl⟩
    · exact ⟨i, f a, _, hself, rfl⟩

/-- **A statement's reply keeps the caller's deeds right**, as long as it does not change rows
after adding some. -/
theorem answer (h : t.Accounts make me l) {q : SqlOp Row} {out : Outcome} {r : q.Reply}
    (hpart : q.Part) (hans : SqlOp.answer me q out t = some (t', r))
    (hmake : ∀ a v, q.Makes a v → make a v)
    (horder : (∃ i p f, q = .visit i p f) → ∀ mk row, .added mk row ∉ l.opened) :
    t'.Accounts make me (l.enter q r) := by
  cases hpart with
  | begin => exact SqlOp.answer_begin hans ▸ h
  | select p => exact (SqlOp.answer_select hans).1 ▸ h
  | scan p => exact (SqlOp.answer_scan hans).1 ▸ h
  | insert mk clash =>
      rcases SqlOp.answer_insert hans with ⟨rfl, e, rfl⟩ | ⟨n, -, -, -, rfl, rfl⟩
      · exact h
      · exact h.insert n
  | commit =>
      rcases SqlOp.answer_commit hans with ⟨rfl, rfl⟩ | ⟨rfl, rfl⟩
      · exact h.settle
      · exact h.drop
  | rollback => exact SqlOp.answer_rollback hans ▸ h.drop
  | visit i p f =>
      rcases SqlOp.answer_visit hans with
        ⟨rfl, rfl | ⟨rfl, -⟩⟩ | ⟨s, a, hs, hfree, hv, hp, rfl, rfl⟩
      · exact h
      · change t'.Accounts make me (l.change p f [])
        rwa [Deeds.change, List.map_nil, List.append_nil]
      · exact h.hold (horder ⟨i, p, f, rfl⟩) hs hfree hv hp (hmake _ _ ⟨hp, rfl⟩)

/-! ### Statements taken whole -/

variable {p : Row → Bool} {f : Row → Option Row}

theorem touch (h : t.Accounts make me l) (hnone : l.opened = [])
    (hmake : ∀ a, p a = true → make a (f a)) {i : Nat} {s : Slot Row} {a : Row}
    (hs : t[i]? = some s) (hview : s.view me = some a) (hp : p a = true) :
    Table.Accounts make me (l.rewrite p) (t.map (Slot.touch me p f)) := by
  have hget : ∀ {d : Nat} {s : Slot Row}, (t.map (Slot.touch me p f))[d]? = some s →
      ∃ s₀, t[d]? = some s₀ ∧ s₀.touch me p f = s := by
    intro d s hs
    rw [List.getElem?_map] at hs
    exact Option.map_eq_some_iff.mp hs
  have hset : ∀ {d : Nat} {s : Slot Row}, t[d]? = some s →
      (t.map (Slot.touch me p f))[d]? = some (s.touch me p f) := fun hs => by
    rw [List.getElem?_map, hs, Option.map_some]
  have hversions : ∀ s : Slot Row, (s.touch me p f).versions = s.versions := by
    intro s
    rcases s.touch_cases me p f with ⟨heq, -⟩ | ⟨r, -, -, heq, -⟩ <;> rw [heq]
    rfl
  -- it held nothing before
  have hfree : ∀ {d : Nat} {s : Slot Row} {u : Option Row}, t[d]? = some s →
      s.lock ≠ some (me, u) := by
    intro d s u hs hl
    obtain ⟨x, hx, -⟩ := h.held hs hl
    rw [hnone] at hx
    cases hx
  have hlocked : Table.Locked (t.map (Slot.touch me p f)) me i (f a) := by
    refine ⟨_, hset hs, ?_⟩
    unfold Slot.touch
    rw [hview]
    dsimp only
    rw [if_pos hp]
    rfl
  refine h.uncommitted rfl ?_ (fun {d s} hs => ⟨_, hset hs, hversions s⟩) ?_ ?_
    fun _ _ => ⟨i, f a, hlocked⟩
  · intro d s' hs'
    obtain ⟨s₀, hs₀, rfl⟩ := hget hs'
    exact .inr ⟨s₀, hs₀, hversions s₀⟩
  · intro d s' v hs' hl
    obtain ⟨s₀, hs₀, rfl⟩ := hget hs'
    rcases s₀.touch_cases me p f with ⟨heq, -⟩ | ⟨r, hv, hr, heq, -⟩
    · rw [heq] at hl
      exact absurd hl (hfree hs₀)
    · rw [heq] at hl ⊢
      obtain ⟨-, rfl⟩ := Prod.mk.inj (Option.some.inj hl)
      refine ⟨.rewrote p, List.mem_append_right _ List.mem_cons_self, ?_⟩
      have hcur : s₀.current = some r := by
        rw [← hv]
        cases hlock : s₀.lock with
        | none => exact (Slot.view_of_unlocked hlock me).symm
        | some l =>
            obtain ⟨k, u⟩ := l
            refine (Slot.view_of_other hlock fun hk => ?_).symm
            subst hk
            exact hfree hs₀ hlock
      change Doing.Leaves make _ s₀.past _
      rw [Slot.past_of_current hcur]
      exact ⟨r, .refl, hr, hmake r hr⟩
  · intro mk row hx
    rw [Deeds.rewrite, hnone] at hx
    cases List.mem_singleton.mp hx

/-- A pooled `UPDATE` or `DELETE` that finds a row. -/
theorem write_pool (h : t.Accounts make me l) (hnone : l.opened = [])
    (hmake : ∀ a, p a = true → make a (f a)) {n : Nat} {r : SqlOp.Reply (.write .pool p f)}
    (hans : SqlOp.answer me (.write .pool p f) (.done n) t = some (t', r)) {i : Nat} {s : Slot Row}
    {a : Row} (hs : t[i]? = some s) (hview : s.view me = some a) (hp : p a = true) :
    t'.Accounts make me (l.rewrite p).settle := by
  obtain ⟨-, heq⟩ := Option.ite_none_right_eq_some.mp hans
  cases heq
  exact (h.touch hnone hmake hs hview hp).settle

end Table.Accounts

/-- A pooled `UPDATE` or `DELETE`, as another caller sees it. -/
theorem SqlOp.apart_write_pool {me k n : Nat} {t t' : Table Row} {p : Row → Bool}
    {f : Row → Option Row} {r : SqlOp.Reply (.write .pool p f)}
    (hans : SqlOp.answer me (.write .pool p f) (.done n) t = some (t', r)) (hk : k ≠ me) :
    t.Apart k t' := by
  obtain ⟨hfree, heq⟩ := Option.ite_none_right_eq_some.mp hans
  cases heq
  suffices h : t.Apart k (t.map (Slot.touch me p f)) from h.trans (Effect.commit.apart hk)
  have hturn : ∀ {d : Nat} {s : Slot Row}, t[d]? = some s → s.Turn me (s.touch me p f) := by
    intro d s hs
    rcases s.touch_cases me p f with ⟨heq, -⟩ | ⟨a, hv, hp, heq, -⟩
    · rw [heq]
      exact .same
    · rw [heq]
      refine .hold a (f a) ?_ hv
      have hor := List.all_eq_true.mp hfree s (List.mem_of_getElem? hs)
      simpa [Slot.hits, hv, hp] using hor
  refine .of_turns hk
    (fun {d s} hs => ⟨_, by rw [List.getElem?_map, hs, Option.map_some], hturn hs⟩)
    fun {d s'} hs' => ?_
  rw [List.getElem?_map] at hs'
  obtain ⟨s, hs, rfl⟩ := Option.map_eq_some_iff.mp hs'
  exact .inl ⟨s, hs, hturn hs⟩

end Basis
