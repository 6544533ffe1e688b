/-
What a row may become.

The values of a slot, the pending one first and then the committed ones back to the
oldest, are one row through time.  `Slot.Evolves` says that each value led to all the
later ones, in whatever sense the relation gives that, so only the latest can be a
deletion.  A statement that takes rows only where the relation allows keeps it, so it
holds of every row of a table from beginning to end: what is true of a row now is then
known of its past, or the other way round.
-/
import Mathlib.Data.List.Pairwise
import Authnz.Basis.Unique

namespace Basis

variable {Row K : Type}

namespace Slot

variable {le : Row → Row → Prop} {s s' : Slot Row} {me : Nat} {a b : Row} {v : Option Row}

/-- What the row is about to be and what it has been, the latest first. -/
def values (s : Slot Row) : List (Option Row) :=
  (s.lock.map Prod.snd).toList ++ s.versions.map (·.row)

/-- Every value is a row that led to all the later ones. -/
def Evolves (le : Row → Row → Prop) (s : Slot Row) : Prop :=
  s.values.Pairwise fun new old => ∃ a, old = some a ∧ ∀ b, new = some b → le a b

theorem values_of_lock {k : Nat} (h : s.lock = some (k, v)) :
    s.values = v :: s.versions.map (·.row) := by
  simp [values, h]

theorem mem_values_of_version {x : Version Row} (h : x ∈ s.versions) : x.row ∈ s.values :=
  List.mem_append_right _ (List.mem_map_of_mem h)

theorem mem_values_of_bears (h : s.Bears a) : some a ∈ s.values := by
  rcases h with ⟨x, hx, hrow⟩ | ⟨k, hl⟩
  · rw [← hrow]
    exact mem_values_of_version hx
  · rw [values_of_lock hl]
    exact List.mem_cons_self

theorem values_commit (me : Nat) (s : Slot Row) : (s.commit me).values = s.values := by
  by_cases hown : ∃ v, s.lock = some (me, v)
  · obtain ⟨v, hv⟩ := hown
    rw [commit_of_own hv, values_of_lock hv]
    rfl
  · rw [commit_of_not_own fun r hr => hown ⟨r, hr⟩]

theorem values_rollback (me : Nat) (s : Slot Row) :
    (s.rollback me).values.Sublist s.values := by
  by_cases hown : ∃ v, s.lock = some (me, v)
  · obtain ⟨v, hv⟩ := hown
    rw [rollback_of_own hv, values_of_lock hv]
    exact List.sublist_cons_self _ _
  · have hsame : s.rollback me = s := rollback_of_not_own fun r hr => hown ⟨r, hr⟩
    exact hsame.symm ▸ List.Sublist.refl s.values

namespace Evolves

theorem commit (h : s.Evolves le) (me : Nat) : (s.commit me).Evolves le := by
  unfold Evolves
  rw [values_commit]
  exact h

theorem rollback (h : s.Evolves le) (me : Nat) : (s.rollback me).Evolves le :=
  List.Pairwise.sublist (values_rollback me s) h

theorem fresh (me : Nat) (r : Row) : (Slot.fresh me r).Evolves le :=
  List.pairwise_singleton _ _

theorem loaded (r : Row) : (Slot.loaded r).Evolves le :=
  List.pairwise_singleton _ _

/-- A row a caller sees and may take, as it is or as the caller has left it. -/
theorem hold (htrans : ∀ {a b c}, le a b → le b c → le a c) (h : s.Evolves le)
    (hfree : s.free me = true) (hview : s.view me = some a) (hv : ∀ b, v = some b → le a b) :
    (s.hold me v).Evolves le := by
  have hpast : (s.versions.map (·.row)).Pairwise fun new old =>
      ∃ a, old = some a ∧ ∀ b, new = some b → le a b :=
    List.Pairwise.sublist (List.sublist_append_right _ _) h
  unfold Evolves
  rw [values_of_lock (k := me) (v := v) rfl]
  refine List.pairwise_cons.mpr ⟨fun old hold => ?_, hpast⟩
  change old ∈ s.versions.map (·.row) at hold
  -- what the caller sees is the latest value, or the one before it leads there
  rcases free_iff.mp hfree with hn | ⟨u, hu⟩
  · rw [view_of_unlocked hn] at hview
    obtain ⟨x, hx, hrow⟩ := Option.bind_eq_some_iff.mp hview
    obtain ⟨rest, hrest⟩ := List.head?_eq_some_iff.mp hx
    rw [hrest, List.map_cons] at hold hpast
    rcases List.mem_cons.mp hold with rfl | hold
    · exact ⟨a, hrow, hv⟩
    · obtain ⟨c, hc, hle⟩ := (List.pairwise_cons.mp hpast).1 old hold
      exact ⟨c, hc, fun b hb => htrans (hle a hrow) (hv b hb)⟩
  · rw [view_of_own hu] at hview
    unfold Evolves at h
    rw [values_of_lock hu] at h
    obtain ⟨c, hc, hle⟩ := (List.pairwise_cons.mp h).1 old hold
    exact ⟨c, hc, fun b hb => htrans (hle a hview) (hv b hb)⟩

/-- What was committed before a row led to it. -/
theorem before (h : s.Evolves le) {pre rest : List (Version Row)} {x y : Version Row}
    (hv : s.versions = pre ++ y :: rest) (hy : y.row = some b) (hx : x ∈ rest) :
    ∃ a, x.row = some a ∧ le a b := by
  have hpast : (s.versions.map (·.row)).Pairwise fun new old =>
      ∃ a, old = some a ∧ ∀ b, new = some b → le a b :=
    List.Pairwise.sublist (List.sublist_append_right _ _) h
  rw [hv, List.map_append, List.map_cons] at hpast
  obtain ⟨a, ha, hle⟩ := (List.pairwise_cons.mp (List.pairwise_append.mp hpast).2.1).1 x.row
    (List.mem_map_of_mem hx)
  exact ⟨a, ha, hle b hy⟩

/-- What no step changes is the same throughout. -/
theorem same {key : Row → K} (hkey : ∀ {a b}, le a b → key b = key a) (h : s.Evolves le) :
    s.Same key := by
  let Agree : Option Row → Option Row → Prop :=
    fun x y => ∀ a b, x = some a → y = some b → key a = key b
  have hsymm : Std.Symm Agree := ⟨fun x y hxy a b ha hb => (hxy b a hb ha).symm⟩
  have hrefl : ∀ x ∈ s.values, Agree x x := by
    intro x _ a b ha hb
    rw [Option.some.inj (ha.symm.trans hb)]
  have hpair : s.values.Pairwise Agree := by
    refine List.Pairwise.imp ?_ h
    intro new old hle a b ha hb
    obtain ⟨c, hc, hle⟩ := hle
    obtain rfl := Option.some.inj (hc.symm.trans hb)
    exact hkey (hle a ha)
  intro r r' hr hr'
  exact hpair.forall_of_forall hrefl (mem_values_of_bears hr) (mem_values_of_bears hr') r r' rfl rfl

end Evolves

end Slot

end Basis
