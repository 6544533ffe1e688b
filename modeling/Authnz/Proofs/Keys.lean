/-
Unique indexes.

An index is checked where a row is added, so a table keeps it as long as no statement
rewrites a key.  `KeepsKeys` lists the statements that do not, and `Indexed.step` says
that they keep the index; what rewrites keys has to bring a check of its own.
-/
import Authnz.Proofs.Frames

namespace Authnz

open Basis

/-- No two rows of the table clash. -/
def UniqueRows {α : Type} (T : Relation α) (rows : List Record) : Prop :=
  ∀ (d d' : Nat) (a a' : α), rows[d]? = some (T.inj a) → rows[d']? = some (T.inj a') →
    T.clash a a' = true → d = d'

/-- The table's index holds, and the caller has none of its rows in hand. -/
structure Indexed {α : Type} (T : Relation α) (w : World) : Prop where
  steady : w.Steady 0 T
  unique : ∀ {d d' : Nat} {a a' : α}, w.row T d = some a → w.row T d' = some a' →
    T.clash a a' = true → d = d'

/-- The ways a statement may touch an indexed table: not at all, or by itself and without
rewriting a key. -/
inductive KeepsKeys {α : Type} (T : Relation α) : SqlOp Record → Prop
  | apart {q : SqlOp Record} (h : Apart T.prj q) : KeepsKeys T q
  | insert (mk : Uuid → α) : KeepsKeys T (.insert .pool (fun n => T.inj (mk n)) T.clashes)
  | delete (p : α → Bool) : KeepsKeys T (.write .pool (T.sel p) Relation.del)
  | set (p : α → Bool) {f : α → α} (hleft : ∀ a b, T.clash (f a) b = T.clash a b)
      (hright : ∀ a b, T.clash a (f b) = T.clash a b) :
      KeepsKeys T (.write .pool (T.sel p) (T.set f))

section Steps

variable {α : Type} {T : Relation α} {w w' : World}

theorem Indexed.of {rows : List Record} (h : UniqueRows T rows) : Indexed T (World.of rows) :=
  ⟨(settled_of 0 rows).steady T, fun ha ha' => h _ _ _ _ (row_of_iff.mp ha) (row_of_iff.mp ha')⟩

theorem Indexed.same (h : Indexed T w) (hst : w'.Steady 0 T)
    (hrows : ∀ d, w'.row T d = w.row T d) : Indexed T w' := by
  refine ⟨hst, fun {d d' a a'} ha ha' => ?_⟩
  rw [hrows] at ha ha'
  exact h.unique ha ha'

/-- What a pooled statement makes of the table, if the caller had none of its rows in hand. -/
theorem row_of_pooled {p : Record → Bool} {f : Record → Option Record} (hst : w.Steady 0 T)
    {g : Option α → Option α} (hg : ∀ x, (Desk.rewrite p f x).bind T.prj = g (x.bind T.prj))
    (hnone : g none = none)
    (h : w'.db.desk 0 = ((w.db.desk 0).write p f).settle .pool) (d : Nat) :
    w'.row T d = g (w.row T d) := look_of_pooled (g := T.prj) hst hg hnone h d

theorem row_of_added {r : Record} (hst : w.Steady 0 T)
    (h : w'.db.desk 0 = ((w.db.desk 0).insert r).settle .pool) (d : Nat) :
    w'.row T d = if d = w.db.length then T.prj r else w.row T d := by
  have hlen : (w.db.desk 0).seen.length = w.db.length := List.length_map _
  rw [row_of_places, places_eq 0, h, ← hst, rowSeen_of_desk]
  change (((w.db.desk 0).seen ++ [some r])[d]?.bind id).bind T.prj = _
  rw [place_of_concat, hlen]
  split
  · rfl
  · rfl

theorem Indexed.added (h : Indexed T w) (hsymm : ∀ a b, T.clash a b = T.clash b a) {a : α}
    (hset : w'.Settled 0) (hfree : ∀ b ∈ w.sees 0 T, T.clash a b = false)
    (hrows : ∀ d, w'.row T d = if d = w.db.length then some a else w.row T d) : Indexed T w' := by
  have hold : ∀ {d b}, w'.row T d = some b →
      d = w.db.length ∧ b = a ∨ w.row T d = some b := by
    intro d b hb
    rw [hrows] at hb
    by_cases hd : d = w.db.length
    · rw [if_pos hd] at hb
      exact .inl ⟨hd, (Option.some.inj hb).symm⟩
    · rw [if_neg hd] at hb
      exact .inr hb
  have hclash : ∀ {d b}, w.row T d = some b → T.clash a b = false := fun {d b} hb =>
    hfree b (mem_sees_iff.mpr ⟨d, (h.steady d).trans hb⟩)
  refine ⟨hset.steady T, fun {d d' b b'} hb hb' hc => ?_⟩
  rcases hold hb with ⟨hd, rfl⟩ | hb <;> rcases hold hb' with ⟨hd', rfl⟩ | hb'
  · rw [hd, hd']
  · rw [hclash hb'] at hc
    cases hc
  · rw [hsymm, hclash hb] at hc
    cases hc
  · exact h.unique hb hb' hc

/-- Rows rewritten in place, with the keys they had. -/
theorem Indexed.rewritten (h : Indexed T w) (hst : w'.Steady 0 T) {f : α → α}
    (hf : ∀ a b, T.clash (f a) (f b) = T.clash a b)
    (hrows : ∀ d, w'.row T d = (w.row T d).map f) : Indexed T w' := by
  refine ⟨hst, fun {d d' a a'} ha ha' hc => ?_⟩
  rw [hrows] at ha ha'
  obtain ⟨b, hb, rfl⟩ := Option.map_eq_some_iff.mp ha
  obtain ⟨b', hb', rfl⟩ := Option.map_eq_some_iff.mp ha'
  rw [hf] at hc
  exact h.unique hb hb' hc

/-- Rows taken away. -/
theorem Indexed.filtered (h : Indexed T w) (hst : w'.Steady 0 T) {p : α → Bool}
    (hrows : ∀ d, w'.row T d = (w.row T d).filter p) : Indexed T w' := by
  refine ⟨hst, fun {d d' a a'} ha ha' => ?_⟩
  rw [hrows] at ha ha'
  exact h.unique (Option.filter_eq_some_iff.mp ha).1 (Option.filter_eq_some_iff.mp ha').1

/-- Two rows in one place, or no clash. -/
theorem Indexed.eq_of_clash (h : Indexed T w) {d d' : Nat} {a a' : α} (ha : w.row T d = some a)
    (ha' : w.row T d' = some a') (hc : T.clash a a' = true) : a = a' := by
  obtain rfl := h.unique ha ha' hc
  exact Option.some.inj (ha.symm.trans ha')

/-- **Statements that keep the keys keep the index.** -/
theorem Indexed.step (hsymm : ∀ a b, T.clash a b = T.clash b a) {c : Crates} {o : Op} {ch : Choice}
    {r : o.Reply} (ho : ∀ q, o.statement = some q → KeepsKeys T q)
    (hans : World.answer c 0 o ch w = some (w', r)) (h : Indexed T w) : Indexed T w' := by
  have hsame : w'.db = w.db → Indexed T w' := fun heq =>
    h.same (h.steady.of_db heq) (row_of_db heq)
  rcases World.answer_db hans with heq | ⟨q, out, r', hq, hdb⟩
  · exact hsame heq
  cases ho q hq with
  | apart hq' =>
      have hapart : ∀ q, o.statement = some q → Apart T.prj q := by
        intro q₁ hq₁
        rw [hq] at hq₁
        cases hq₁
        exact hq'
      obtain ⟨hst, hrows⟩ := Apart.frame hapart hans h.steady
      exact h.same hst hrows
  | insert mk =>
      rcases SqlOp.alone_insert hdb with ⟨key, -, hfree, hdesk, -⟩ | ⟨-, -, -, ht, -⟩ | ⟨-, ht, -⟩
      · have hset : w'.Settled 0 := by
          rw [World.Settled, hdesk]
          exact Desk.settled_pool _
        refine h.added (a := mk key) hsymm hset (fun b hb => ?_) fun d => ?_
        · obtain ⟨x, hx, hprj⟩ := List.mem_filterMap.mp hb
          have hc := hfree x hx
          rwa [T.inj_of_prj hprj, T.clashes_inj] at hc
        · rw [row_of_added h.steady hdesk, T.prj_inj]
      · exact hsame ht
      · exact hsame ht
  | delete p =>
      rcases SqlOp.alone_write hdb with ⟨hdesk, -⟩ | ⟨-, ht, -⟩
      · have hset : w'.Settled 0 := by
          rw [World.Settled, hdesk]
          exact Desk.settled_pool _
        exact h.filtered (hset.steady T) (row_of_pooled h.steady (prj_rewrite_del p) rfl hdesk)
      · exact hsame ht
  | @set p f hleft hright =>
      rcases SqlOp.alone_write hdb with ⟨hdesk, -⟩ | ⟨-, ht, -⟩
      · have hset : w'.Settled 0 := by
          rw [World.Settled, hdesk]
          exact Desk.settled_pool _
        refine h.rewritten (hset.steady T) (fun a b => ?_)
          (row_of_pooled h.steady (prj_rewrite_set p f) rfl hdesk)
        by_cases ha : p a = true <;> by_cases hb : p b = true <;>
          simp only [ha, hb, if_true, if_false, hleft, hright, Bool.false_eq_true]
      · exact hsame ht

end Steps

end Authnz
