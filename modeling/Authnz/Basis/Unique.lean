/-
Rows that come and go under a unique index.

`Basis/Journal.lean` has a unique index over rows that are never deleted, and asks
that a key be new to the whole history.  Here rows may be deleted, and a key may be
taken again by another row afterwards.  `Table.Unique` is what every part of a
statement keeps as long as it leaves the keys alone: no two rows that are committed
or about to be have one key, a caller's own deletion apart.

What a part leaves in a row is said once, by `Part.carries`: what was there, what
the statement made of a row it saw, or the row it added.
-/
import Authnz.Basis.Journal

namespace Basis

variable {Row K : Type}

namespace Slot

variable {s : Slot Row} {me : Nat} {w : Option Nat} {v : Option Row} {r : Row}

/-- This has been made of the row, or will be, by that caller. -/
def Carries (s : Slot Row) (w : Option Nat) (v : Option Row) : Prop :=
  ⟨w, v⟩ ∈ s.versions ∨ ∃ k, w = some k ∧ s.lock = some (k, v)

theorem bears_iff : s.Bears r ↔ ∃ w, s.Carries w (some r) := by
  constructor
  · rintro (⟨x, hx, hrow⟩ | ⟨k, hl⟩)
    · refine ⟨x.writer, .inl ?_⟩
      rw [← hrow]
      exact hx
    · exact ⟨some k, .inr ⟨k, rfl, hl⟩⟩
  · rintro ⟨w, hx | ⟨k, -, hl⟩⟩
    · exact .inl ⟨_, hx, rfl⟩
    · exact .inr ⟨k, hl⟩

theorem carries_of_commit (h : (s.commit me).Carries w v) : s.Carries w v := by
  by_cases hown : ∃ v, s.lock = some (me, v)
  · obtain ⟨v', hv⟩ := hown
    rw [commit_of_own hv] at h
    rcases h with hx | ⟨k, -, hl⟩
    · rcases List.mem_cons.mp hx with heq | hx
      · cases heq
        exact .inr ⟨me, rfl, hv⟩
      · exact .inl hx
    · cases hl
  · rwa [commit_of_not_own fun r hr => hown ⟨r, hr⟩] at h

theorem carries_of_rollback (h : (s.rollback me).Carries w v) : s.Carries w v := by
  by_cases hown : ∃ v, s.lock = some (me, v)
  · obtain ⟨v', hv⟩ := hown
    rw [rollback_of_own hv] at h
    rcases h with hx | ⟨k, -, hl⟩
    · exact .inl hx
    · cases hl
  · rwa [rollback_of_not_own fun r hr => hown ⟨r, hr⟩] at h

theorem carries_of_hold {v' : Option Row} (h : (s.hold me v').Carries w v) :
    s.Carries w v ∨ w = some me ∧ v = v' := by
  rcases h with hx | ⟨k, rfl, hl⟩
  · exact .inl (.inl hx)
  · obtain ⟨rfl, rfl⟩ : me = k ∧ v' = v := by simpa [Slot.hold] using hl
    exact .inr ⟨rfl, rfl⟩

theorem carries_of_fresh (h : (Slot.fresh me r).Carries w v) : w = some me ∧ v = some r := by
  rcases h with hx | ⟨k, rfl, hl⟩
  · cases hx
  · obtain ⟨rfl, rfl⟩ : me = k ∧ some r = v := by simpa [Slot.fresh] using hl
    exact ⟨rfl, rfl⟩

theorem carries_of_loaded (h : (Slot.loaded r).Carries w v) : w = none ∧ v = some r := by
  rcases h with hx | ⟨k, -, hl⟩
  · cases List.mem_singleton.mp hx
    exact ⟨rfl, rfl⟩
  · cases hl

/-! ### Rows that are gone -/

/-- The row was there and has been deleted. -/
def Ended (s : Slot Row) : Prop := s.versions ≠ [] ∧ s.current = none

/-- Nobody holds a row that is gone. -/
def Laid (s : Slot Row) : Prop := s.Ended → s.lock = none

theorem Ended.turn {s' : Slot Row} (h : s.Ended) (hl : s.Laid) (ht : s.Turn me s') : s' = s :=
  ht.of_dead h.2 (hl h)

theorem Laid.turn {s' : Slot Row} (h : s.Laid) (ht : s.Turn me s') : s'.Laid := by
  rintro ⟨hv, hc⟩
  cases ht with
  | same => exact h ⟨hv, hc⟩
  | hold r v hfree hview =>
      have hlock := h ⟨hv, hc⟩
      rw [view_of_unlocked hlock, show s.current = none from hc] at hview
      cases hview
  | commit =>
      by_cases hown : ∃ v, s.lock = some (me, v)
      · obtain ⟨v, hlock⟩ := hown
        rw [commit_of_own hlock]
      · rw [commit_of_not_own fun r hr => hown ⟨r, hr⟩] at hv hc ⊢
        exact h ⟨hv, hc⟩
  | rollback =>
      by_cases hown : ∃ v, s.lock = some (me, v)
      · obtain ⟨v, hlock⟩ := hown
        rw [rollback_of_own hlock]
      · rw [rollback_of_not_own fun r hr => hown ⟨r, hr⟩] at hv hc ⊢
        exact h ⟨hv, hc⟩

theorem Laid.fresh (me : Nat) (r : Row) : (Slot.fresh me r).Laid := fun h => absurd rfl h.1

theorem Laid.loaded (r : Row) : (Slot.loaded r).Laid := fun _ => rfl

end Slot

/-! ### What a part leaves in a row -/

namespace SqlOp

variable {me d : Nat} {out : Outcome} {t t' : Table Row} {w : Option Nat} {v : Option Row}

theorem Part.carries {o : SqlOp Row} (ho : o.Part) {r : o.Reply}
    (h : answer me o out t = some (t', r)) {s' : Slot Row} (hs' : t'[d]? = some s')
    (hv : s'.Carries w v) :
    (∃ s, t[d]? = some s ∧ s.Carries w v) ∨
      (∃ p f s a, o = .visit d p f ∧ w = some me ∧ t[d]? = some s ∧ s.Bears a ∧ p a = true ∧
        v = f a) ∨
      ∃ mk clash key, o = .insert .tx mk clash ∧ w = some me ∧ d = t.length ∧
        v = some (mk key) := by
  have hcommit : (t.map (Slot.commit me))[d]? = some s' → ∃ s, t[d]? = some s ∧ s.Carries w v := by
    intro hs'
    rw [List.getElem?_map] at hs'
    obtain ⟨s, hs, rfl⟩ := Option.map_eq_some_iff.mp hs'
    exact ⟨s, hs, Slot.carries_of_commit hv⟩
  have hrollback : (t.map (Slot.rollback me))[d]? = some s' →
      ∃ s, t[d]? = some s ∧ s.Carries w v := by
    intro hs'
    rw [List.getElem?_map] at hs'
    obtain ⟨s, hs, rfl⟩ := Option.map_eq_some_iff.mp hs'
    exact ⟨s, hs, Slot.carries_of_rollback hv⟩
  cases ho with
  | begin =>
      rw [answer_begin h] at hs'
      exact .inl ⟨s', hs', hv⟩
  | select p =>
      rw [(answer_select h).1] at hs'
      exact .inl ⟨s', hs', hv⟩
  | scan p =>
      rw [(answer_scan h).1] at hs'
      exact .inl ⟨s', hs', hv⟩
  | commit =>
      rcases answer_commit h with ⟨rfl, -⟩ | ⟨rfl, -⟩
      · exact .inl (hcommit hs')
      · exact .inl (hrollback hs')
  | rollback =>
      rw [answer_rollback h] at hs'
      exact .inl (hrollback hs')
  | insert mk clash =>
      rcases answer_insert h with ⟨rfl, -⟩ | ⟨key, -, -, -, rfl, -⟩
      · exact .inl ⟨s', hs', hv⟩
      · rcases get_snoc_cases hs' with ⟨rfl, rfl⟩ | hold
        · obtain ⟨rfl, rfl⟩ := Slot.carries_of_fresh hv
          exact .inr (.inr ⟨mk, clash, key, rfl, rfl, rfl, rfl⟩)
        · exact .inl ⟨s', hold, hv⟩
  | visit i p f =>
      rcases answer_visit h with ⟨rfl, -⟩ | ⟨s, a, hs, -, hview, hp, rfl, -⟩
      · exact .inl ⟨s', hs', hv⟩
      · rcases get_set_cases hs' with ⟨rfl, rfl⟩ | ⟨-, hold⟩
        · rcases Slot.carries_of_hold hv with hold | ⟨rfl, rfl⟩
          · exact .inl ⟨s, hs, hold⟩
          · exact .inr (.inl ⟨p, f, s, a, rfl, rfl, hs, Slot.bears_of_view hview, hp, rfl⟩)
        · exact .inl ⟨s', hold, hv⟩

/-- The part does not change this of a row. -/
def Fixes (key : Row → K) (o : SqlOp Row) : Prop :=
  ∀ i p f, o = .visit i p f → ∀ a b, p a = true → f a = some b → key b = key a

/-- Where the part adds a row, it looks for others with its key. -/
def Checks (key : Row → Option K) (o : SqlOp Row) : Prop :=
  ∀ mk clash, o = .insert .tx mk clash → ∀ a b x, key a = some x → key b = some x →
    clash a b = true

end SqlOp

/-! ### The index -/

/-- No two rows have one key: committed, about to be committed, or the one and the other, unless
the committed one is in the same caller's hands. -/
structure Table.Unique (key : Row → Option K) (t : Table Row) : Prop where
  committed : ∀ {d e : Nat} {s s' : Slot Row} {x : K}, t[d]? = some s → t[e]? = some s' →
    s.current.bind key = some x → s'.current.bind key = some x → d = e
  held : ∀ {d e k k' : Nat} {s s' : Slot Row} {v v' : Option Row} {x : K}, t[d]? = some s →
    t[e]? = some s' → s.lock = some (k, v) → s'.lock = some (k', v') → v.bind key = some x →
    v'.bind key = some x → d = e
  crossed : ∀ {d e k : Nat} {s s' : Slot Row} {v : Option Row} {x : K}, t[d]? = some s →
    t[e]? = some s' → s.lock = some (k, v) → v.bind key = some x → s'.current.bind key = some x →
    d = e ∨ ∃ v', s'.lock = some (k, v')

namespace Table.Unique

variable {key : Row → Option K} {t t' : Table Row} {me : Nat}

theorem commit (h : t.Unique key) (me : Nat) : Table.Unique key (t.map (Slot.commit me)) := by
  -- a row of `me` comes to be what was held, any other stays what it was
  have hcases : ∀ {d : Nat} {s' : Slot Row}, (t.map (Slot.commit me))[d]? = some s' →
      ∃ s, t[d]? = some s ∧ ((∃ v, s.lock = some (me, v) ∧ s'.current = v ∧ s'.lock = none) ∨
        (∀ v, s.lock ≠ some (me, v)) ∧ s' = s) := by
    intro d s' hs'
    rw [List.getElem?_map] at hs'
    obtain ⟨s, hs, rfl⟩ := Option.map_eq_some_iff.mp hs'
    refine ⟨s, hs, ?_⟩
    by_cases hown : ∃ v, s.lock = some (me, v)
    · obtain ⟨v, hv⟩ := hown
      exact .inl ⟨v, hv, by rw [Slot.commit_of_own hv]; rfl, by rw [Slot.commit_of_own hv]⟩
    · have hno : ∀ v, s.lock ≠ some (me, v) := fun v hv => hown ⟨v, hv⟩
      exact .inr ⟨hno, Slot.commit_of_not_own hno⟩
  refine ⟨fun {d e s s' x} hs hs' hx hx' => ?_, fun {d e k k' s s' v v' x} hs hs' hl hl' hx hx' => ?_,
    fun {d e k s s' v x} hs hs' hl hx hx' => ?_⟩
  · obtain ⟨s₁, hs₁, ⟨v, hv, hc, -⟩ | ⟨hno, rfl⟩⟩ := hcases hs <;>
      obtain ⟨s₂, hs₂, ⟨v', hv', hc', -⟩ | ⟨hno', rfl⟩⟩ := hcases hs'
    · exact h.held hs₁ hs₂ hv hv' (hc ▸ hx) (hc' ▸ hx')
    · rcases h.crossed hs₁ hs₂ hv (hc ▸ hx) hx' with heq | ⟨v', hv'⟩
      · exact heq
      · exact absurd hv' (hno' v')
    · rcases h.crossed hs₂ hs₁ hv' (hc' ▸ hx') hx with heq | ⟨v, hv⟩
      · exact heq.symm
      · exact absurd hv (hno v)
    · exact h.committed hs₁ hs₂ hx hx'
  · obtain ⟨s₁, hs₁, ⟨-, -, -, hn⟩ | ⟨-, rfl⟩⟩ := hcases hs
    · rw [hn] at hl
      cases hl
    obtain ⟨s₂, hs₂, ⟨-, -, -, hn⟩ | ⟨-, rfl⟩⟩ := hcases hs'
    · rw [hn] at hl'
      cases hl'
    exact h.held hs₁ hs₂ hl hl' hx hx'
  · obtain ⟨s₁, hs₁, ⟨-, -, -, hn⟩ | ⟨hno, rfl⟩⟩ := hcases hs
    · rw [hn] at hl
      cases hl
    obtain ⟨s₂, hs₂, ⟨v', hv', hc', -⟩ | ⟨-, rfl⟩⟩ := hcases hs'
    · exact .inl (h.held hs₁ hs₂ hl hv' hx (hc' ▸ hx'))
    · exact h.crossed hs₁ hs₂ hl hx hx'

theorem rollback (h : t.Unique key) (me : Nat) : Table.Unique key (t.map (Slot.rollback me)) := by
  have hcases : ∀ {d : Nat} {s' : Slot Row}, (t.map (Slot.rollback me))[d]? = some s' →
      ∃ s, t[d]? = some s ∧ s'.current = s.current ∧
        ((∃ v, s.lock = some (me, v)) ∧ s'.lock = none ∨
          (∀ v, s.lock ≠ some (me, v)) ∧ s'.lock = s.lock) := by
    intro d s' hs'
    rw [List.getElem?_map] at hs'
    obtain ⟨s, hs, rfl⟩ := Option.map_eq_some_iff.mp hs'
    refine ⟨s, hs, Slot.current_rollback me s, ?_⟩
    by_cases hown : ∃ v, s.lock = some (me, v)
    · obtain ⟨v, hv⟩ := hown
      exact .inl ⟨⟨v, hv⟩, by rw [Slot.rollback_of_own hv]⟩
    · have hno : ∀ v, s.lock ≠ some (me, v) := fun v hv => hown ⟨v, hv⟩
      exact .inr ⟨hno, by rw [Slot.rollback_of_not_own hno]⟩
  refine ⟨fun {d e s s' x} hs hs' hx hx' => ?_, fun {d e k k' s s' v v' x} hs hs' hl hl' hx hx' => ?_,
    fun {d e k s s' v x} hs hs' hl hx hx' => ?_⟩
  · obtain ⟨s₁, hs₁, hc, -⟩ := hcases hs
    obtain ⟨s₂, hs₂, hc', -⟩ := hcases hs'
    exact h.committed hs₁ hs₂ (hc ▸ hx) (hc' ▸ hx')
  · obtain ⟨s₁, hs₁, -, ⟨-, hn⟩ | ⟨-, heq⟩⟩ := hcases hs
    · rw [hn] at hl
      cases hl
    obtain ⟨s₂, hs₂, -, ⟨-, hn⟩ | ⟨-, heq'⟩⟩ := hcases hs'
    · rw [hn] at hl'
      cases hl'
    exact h.held hs₁ hs₂ (heq ▸ hl) (heq' ▸ hl') hx hx'
  · obtain ⟨s₁, hs₁, -, ⟨-, hn⟩ | ⟨hno, heq⟩⟩ := hcases hs
    · rw [hn] at hl
      cases hl
    obtain ⟨s₂, hs₂, hc', hlock⟩ := hcases hs'
    rw [heq] at hl
    rcases h.crossed hs₁ hs₂ hl hx (hc' ▸ hx') with hde | ⟨v', hv'⟩
    · exact .inl hde
    · rcases hlock with ⟨⟨u, hu⟩, -⟩ | ⟨-, heq'⟩
      · rw [hu] at hv'
        cases hv'
        exact absurd hl (hno v)
      · exact .inr ⟨v', heq'.trans hv'⟩

/-- A row a caller sees and may take, as it is or as the caller has left it. -/
theorem take (h : t.Unique key) {i : Nat} {s₀ : Slot Row} {a : Row} {u : Option Row}
    (hs₀ : t[i]? = some s₀) (hfree : s₀.free me = true) (hview : s₀.view me = some a)
    (hu : ∀ {x}, u.bind key = some x → key a = some x) :
    Table.Unique key (t.set i (s₀.hold me u)) := by
  have hseen : (∃ v, s₀.lock = some (me, v) ∧ v = some a) ∨
      s₀.lock = none ∧ s₀.current = some a := by
    rcases Slot.free_iff.mp hfree with hn | ⟨v, hv⟩
    · exact .inr ⟨hn, by rw [← hview, Slot.view_of_unlocked hn]⟩
    · exact .inl ⟨v, hv, by rw [← hview, Slot.view_of_own hv]⟩
  -- what the caller makes of its row has the key of what it saw there
  have hheld : ∀ {e k' : Nat} {s' : Slot Row} {v' : Option Row} {x : K}, t[e]? = some s' →
      s'.lock = some (k', v') → v'.bind key = some x → u.bind key = some x → e = i := by
    intro e k' s' v' x hs' hl' hx' hx
    rcases hseen with ⟨v₀, hv₀, rfl⟩ | ⟨hn, hc⟩
    · exact h.held hs' hs₀ hl' hv₀ hx' (hu hx)
    · rcases h.crossed hs' hs₀ hl' hx' (by rw [hc]; exact hu hx) with heq | ⟨v₁, hv₁⟩
      · exact heq
      · rw [hn] at hv₁
        cases hv₁
  have hcommitted : ∀ {e : Nat} {s' : Slot Row} {x : K}, t[e]? = some s' →
      s'.current.bind key = some x → u.bind key = some x →
        i = e ∨ ∃ v', s'.lock = some (me, v') := by
    intro e s' x hs' hx' hx
    rcases hseen with ⟨v₀, hv₀, rfl⟩ | ⟨-, hc⟩
    · exact h.crossed hs₀ hs' hv₀ (hu hx) hx'
    · exact .inl (h.committed hs₀ hs' (by rw [hc]; exact hu hx) hx')
  have hlock : ∀ {k : Nat} {v : Option Row}, (s₀.hold me u).lock = some (k, v) →
      me = k ∧ u = v := fun hl => Prod.mk.inj (Option.some.inj hl)
  refine ⟨fun {d e s s' x} hs hs' hx hx' => ?_, fun {d e k k' s s' v v' x} hs hs' hl hl' hx hx' => ?_,
    fun {d e k s s' v x} hs hs' hl hx hx' => ?_⟩
  · have hold : ∀ {d : Nat} {s : Slot Row}, (t.set i (s₀.hold me u))[d]? = some s →
        ∃ s₁, t[d]? = some s₁ ∧ s₁.current = s.current := by
      intro d s hs
      rcases get_set_cases hs with ⟨rfl, rfl⟩ | ⟨-, hs⟩
      · exact ⟨s₀, hs₀, rfl⟩
      · exact ⟨s, hs, rfl⟩
    obtain ⟨s₁, hs₁, hc⟩ := hold hs
    obtain ⟨s₂, hs₂, hc'⟩ := hold hs'
    exact h.committed hs₁ hs₂ (hc ▸ hx) (hc' ▸ hx')
  · rcases get_set_cases hs with ⟨rfl, rfl⟩ | ⟨-, hs₁⟩ <;>
      rcases get_set_cases hs' with ⟨rfl, rfl⟩ | ⟨-, hs₂⟩
    · rfl
    · exact (hheld hs₂ hl' hx' ((hlock hl).2 ▸ hx)).symm
    · exact hheld hs₁ hl hx ((hlock hl').2 ▸ hx')
    · exact h.held hs₁ hs₂ hl hl' hx hx'
  · rcases get_set_cases hs with ⟨rfl, rfl⟩ | ⟨-, hs₁⟩ <;>
      rcases get_set_cases hs' with ⟨rfl, rfl⟩ | ⟨-, hs₂⟩
    · exact .inl rfl
    · obtain ⟨rfl, rfl⟩ := hlock hl
      exact hcommitted hs₂ hx' hx
    · rcases h.crossed hs₁ hs₀ hl hx hx' with heq | ⟨v', hv'⟩
      · exact .inl heq
      · rcases Slot.free_iff.mp hfree with hn | ⟨v₁, hv₁⟩
        · rw [hn] at hv'
          cases hv'
        · rw [hv₁] at hv'
          cases hv'
          exact .inr ⟨u, rfl⟩
    · exact h.crossed hs₁ hs₂ hl hx hx'

/-- An added row, if nobody has its key. -/
theorem insert (h : t.Unique key) {r : Row} {clash : Row → Bool}
    (hclash : ∀ {b x}, key r = some x → key b = some x → clash b = true)
    (hdup : SqlOp.duplicate me clash t = false) (hcon : SqlOp.contended me clash t = false) :
    Table.Unique key (t ++ [Slot.fresh me r]) := by
  have hdup' : ∀ {e : Nat} {s' : Slot Row} {b : Row}, t[e]? = some s' → s'.free me = true →
      s'.view me = some b → clash b = false := by
    intro e s' b hs' hfree hview
    have hno := List.any_eq_false.mp hdup s' (List.mem_of_getElem? hs')
    simpa [hfree, hview] using hno
  have hcon' : ∀ {e : Nat} {s' : Slot Row} {b : Row}, t[e]? = some s' → s'.free me = false →
      s'.current = some b ∨ (∃ k', s'.lock = some (k', some b)) → clash b = false := by
    intro e s' b hs' hfree hb
    have hno := List.any_eq_false.mp hcon s' (List.mem_of_getElem? hs')
    rcases hb with hb | ⟨k', hb⟩ <;> simp_all
  have hheld : ∀ {e k' : Nat} {s' : Slot Row} {v' : Option Row} {x : K}, t[e]? = some s' →
      s'.lock = some (k', v') → v'.bind key = some x → key r ≠ some x := by
    intro e k' s' v' x hs' hl' hx' hx
    obtain ⟨b, rfl, hb⟩ := Option.bind_eq_some_iff.mp hx'
    have hc := hclash hx hb
    by_cases hk : k' = me
    · subst hk
      rw [hdup' hs' (Slot.free_iff.mpr (.inr ⟨_, hl'⟩)) (Slot.view_of_own hl')] at hc
      cases hc
    · rw [hcon' hs' (by simp [Slot.free, hl', hk]) (.inr ⟨k', hl'⟩)] at hc
      cases hc
  have hcommitted : ∀ {e : Nat} {s' : Slot Row} {x : K}, t[e]? = some s' →
      s'.current.bind key = some x → key r = some x → ∃ v', s'.lock = some (me, v') := by
    intro e s' x hs' hx' hx
    obtain ⟨b, hb, hbx⟩ := Option.bind_eq_some_iff.mp hx'
    have hc := hclash hx hbx
    by_cases hfree : s'.free me = true
    · rcases Slot.free_iff.mp hfree with hn | hown
      · rw [hdup' hs' hfree (by rw [Slot.view_of_unlocked hn, hb])] at hc
        cases hc
      · exact hown
    · rw [hcon' hs' (by simpa using hfree) (.inl hb)] at hc
      cases hc
  have hlock : ∀ {k : Nat} {v : Option Row}, (Slot.fresh me r).lock = some (k, v) →
      me = k ∧ some r = v := fun hl => Prod.mk.inj (Option.some.inj hl)
  refine ⟨fun {d e s s' x} hs hs' hx hx' => ?_, fun {d e k k' s s' v v' x} hs hs' hl hl' hx hx' => ?_,
    fun {d e k s s' v x} hs hs' hl hx hx' => ?_⟩
  · rcases get_snoc_cases hs with ⟨rfl, rfl⟩ | hs
    · cases hx
    rcases get_snoc_cases hs' with ⟨rfl, rfl⟩ | hs'
    · cases hx'
    exact h.committed hs hs' hx hx'
  · rcases get_snoc_cases hs with ⟨rfl, rfl⟩ | hs <;>
      rcases get_snoc_cases hs' with ⟨rfl, rfl⟩ | hs'
    · rfl
    · obtain ⟨-, rfl⟩ := hlock hl
      exact absurd hx (hheld hs' hl' hx')
    · obtain ⟨-, rfl⟩ := hlock hl'
      exact absurd hx' (hheld hs hl hx)
    · exact h.held hs hs' hl hl' hx hx'
  · rcases get_snoc_cases hs' with ⟨rfl, rfl⟩ | hs'
    · cases hx'
    rcases get_snoc_cases hs with ⟨rfl, rfl⟩ | hs
    · obtain ⟨rfl, rfl⟩ := hlock hl
      exact .inr (hcommitted hs' hx' hx)
    · exact h.crossed hs hs' hl hx hx'

/-- **Parts that leave the keys alone, and check them where they add a row, keep them unique.** -/
theorem part (h : t.Unique key) {o : SqlOp Row} (ho : o.Part) (hfix : o.Fixes key)
    (hcheck : o.Checks key) {out : Outcome} {r : o.Reply}
    (hans : SqlOp.answer me o out t = some (t', r)) : t'.Unique key := by
  cases ho with
  | begin =>
      rw [SqlOp.answer_begin hans]
      exact h
  | select p =>
      rw [(SqlOp.answer_select hans).1]
      exact h
  | scan p =>
      rw [(SqlOp.answer_scan hans).1]
      exact h
  | commit =>
      rcases SqlOp.answer_commit hans with ⟨rfl, -⟩ | ⟨rfl, -⟩
      · exact h.commit me
      · exact h.rollback me
  | rollback =>
      rw [SqlOp.answer_rollback hans]
      exact h.rollback me
  | insert mk clash =>
      rcases SqlOp.answer_insert hans with ⟨rfl, -⟩ | ⟨n, -, hdup, hcon, rfl, -⟩
      · exact h
      · exact h.insert (fun hr hb => hcheck mk clash rfl _ _ _ hr hb) hdup hcon
  | visit i p f =>
      rcases SqlOp.answer_visit hans with ⟨rfl, -⟩ | ⟨s, a, hs, hfree, hview, hp, rfl, -⟩
      · exact h
      · refine h.take hs hfree hview fun {x} hx => ?_
        obtain ⟨b, hb, hbx⟩ := Option.bind_eq_some_iff.mp hx
        rw [← hfix i p f rfl a b hp hb, hbx]

/-- Before any call, with rows whose keys differ. -/
theorem start {rows : List Row} (hrows : ∀ {d e : Nat} {r r' : Row} {x : K}, rows[d]? = some r →
      rows[e]? = some r' → key r = some x → key r' = some x → d = e) :
    Table.Unique key (rows.map Slot.loaded) := by
  have hslot : ∀ {d : Nat} {s : Slot Row}, (rows.map Slot.loaded)[d]? = some s →
      ∃ r, rows[d]? = some r ∧ s = Slot.loaded r := by
    intro d s hs
    rw [List.getElem?_map] at hs
    obtain ⟨r, hr, rfl⟩ := Option.map_eq_some_iff.mp hs
    exact ⟨r, hr, rfl⟩
  refine ⟨fun {d e s s' x} hs hs' hx hx' => ?_, fun {d e k k' s s' v v' x} hs hs' hl hl' hx hx' => ?_,
    fun {d e k s s' v x} hs hs' hl hx hx' => ?_⟩
  · obtain ⟨r, hr, rfl⟩ := hslot hs
    obtain ⟨r', hr', rfl⟩ := hslot hs'
    exact hrows hr hr' hx hx'
  · obtain ⟨r, -, rfl⟩ := hslot hs
    cases hl
  · obtain ⟨r, -, rfl⟩ := hslot hs
    cases hl

end Table.Unique

/-! ### From one moment to a later one -/

/-- Every version is still there, and what was gone is as it was. -/
def Table.Since (t t' : Table Row) : Prop :=
  ∀ {d : Nat} {s : Slot Row}, t[d]? = some s →
    ∃ s', t'[d]? = some s' ∧ (∀ x ∈ s.versions, x ∈ s'.versions) ∧ (s.Ended → s' = s)

theorem Table.Since.refl (t : Table Row) : t.Since t :=
  fun hs => ⟨_, hs, fun _ hx => hx, fun _ => rfl⟩

theorem Table.Since.effect {t₀ t t' : Table Row} {me : Nat} (h : t₀.Since t)
    (hlaid : ∀ {d : Nat} {s : Slot Row}, t[d]? = some s → s.Laid) (he : Effect me t t') :
    t₀.Since t' := by
  intro d s hs
  obtain ⟨s₁, hs₁, hkept, hsame⟩ := h hs
  obtain ⟨s', hs', hturn⟩ := he.old hs₁
  refine ⟨s', hs', fun x hx => ?_, fun hended => ?_⟩
  · obtain ⟨pre, hpre⟩ := hturn.suffix
    rw [hpre]
    exact List.mem_append_right _ (hkept x hx)
  · obtain rfl := hsame hended
    exact hended.turn (hlaid hs₁) hturn

/-! ### What stays the same about a row -/

/-- Whatever is or has been in this slot agrees in this. -/
def Slot.Same (key : Row → K) (s : Slot Row) : Prop :=
  ∀ {r r' : Row}, s.Bears r → s.Bears r' → key r = key r'

theorem Slot.Same.loaded (key : Row → K) (r : Row) : (Slot.loaded r).Same key := by
  intro r₁ r₂ h₁ h₂
  obtain ⟨w₁, h₁⟩ := Slot.bears_iff.mp h₁
  obtain ⟨w₂, h₂⟩ := Slot.bears_iff.mp h₂
  obtain ⟨-, rfl⟩ : w₁ = none ∧ r₁ = r := by simpa using Slot.carries_of_loaded h₁
  obtain ⟨-, rfl⟩ : w₂ = none ∧ r₂ = r₁ := by simpa using Slot.carries_of_loaded h₂
  rfl

/-- **A part that does not change this of a row changes it of no row.** -/
theorem SqlOp.Part.same {key : Row → K} {o : SqlOp Row} (ho : o.Part) (hfix : o.Fixes key) {me : Nat}
    {out : Outcome} {t t' : Table Row} {r : o.Reply}
    (hans : SqlOp.answer me o out t = some (t', r)) {d : Nat} {s' : Slot Row}
    (hs' : t'[d]? = some s') (h : ∀ s, t[d]? = some s → s.Same key) : s'.Same key := by
  intro r₁ r₂ hr₁ hr₂
  -- each of the two was there, or was made of one that was, or is the row just added
  have hsource : ∀ {r : Row}, s'.Bears r → (∃ s a, t[d]? = some s ∧ s.Bears a ∧ key r = key a) ∨
      ∃ mk clash n, o = .insert .tx mk clash ∧ d = t.length ∧ r = mk n := by
    intro r hr
    obtain ⟨w, hw⟩ := Slot.bears_iff.mp hr
    rcases ho.carries hans hs' hw with ⟨s, hs, hold⟩ | ⟨p, f, s, a, rfl, -, hs, ha, hp, hfa⟩ |
        ⟨mk, clash, n, rfl, -, hd, hmk⟩
    · exact .inl ⟨s, r, hs, Slot.bears_iff.mpr ⟨w, hold⟩, rfl⟩
    · exact .inl ⟨s, a, hs, ha, hfix d p f rfl a _ hp hfa.symm⟩
    · exact .inr ⟨mk, clash, n, rfl, hd, Option.some.inj hmk⟩
  rcases hsource hr₁ with ⟨s, a, hs, ha, hka⟩ | ⟨mk, clash, n, rfl, rfl, rfl⟩
  · rcases hsource hr₂ with ⟨s₂, b, hs₂, hb, hkb⟩ | ⟨mk, clash, n, -, hd, -⟩
    · obtain rfl := Option.some.inj (hs.symm.trans hs₂)
      rw [hka, hkb, h s hs ha hb]
    · exact absurd (List.getElem?_eq_some_iff.mp hs).1 (by omega)
  · rcases answer_insert hans with ⟨rfl, -⟩ | ⟨n', -, -, -, rfl, -⟩
    · exact absurd (List.getElem?_eq_some_iff.mp hs').1 (Nat.lt_irrefl _)
    · rw [List.getElem?_concat_length] at hs'
      obtain rfl := Option.some.inj hs'
      obtain ⟨w₁, hw₁⟩ := Slot.bears_iff.mp hr₁
      obtain ⟨w₂, hw₂⟩ := Slot.bears_iff.mp hr₂
      rw [Option.some.inj (Slot.carries_of_fresh hw₁).2, Option.some.inj (Slot.carries_of_fresh hw₂).2]

end Basis
