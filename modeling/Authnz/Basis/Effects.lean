/-
What the parts of a statement do to a table.

Every part has one of five effects: none, one row taken, one row added, or all of
the caller's rows committed or given back.  For a single row that is a `Turn`, and
the frame rules are read off it: a row another caller holds does not change, a dead
row stays dead, and a version once committed is there for good, under the name of
the caller that committed it.

`Holds` says exactly which rows a caller has taken and what it will leave there.
-/
import Authnz.Basis.ReadCommitted

namespace Basis

variable {Row : Type}

/-- What a caller's operation makes of one row. -/
inductive Slot.Turn (me : Nat) (s : Slot Row) : Slot Row → Prop
  | same : Turn me s s
  | hold (r : Row) (v : Option Row) (hfree : s.free me = true) (hview : s.view me = some r) :
      Turn me s (s.hold me v)
  | commit : Turn me s (s.commit me)
  | rollback : Turn me s (s.rollback me)

namespace Slot.Turn

variable {me k : Nat} {s s' : Slot Row} {v : Option Row}

/-- A row somebody else holds stays as it is. -/
theorem of_held (h : Turn me s s') (hl : s.lock = some (k, v)) (hk : k ≠ me) : s' = s := by
  have hown : ∀ r, s.lock ≠ some (me, r) := by
    intro r hr
    rw [hl] at hr
    simp only [Option.some.injEq, Prod.mk.injEq] at hr
    exact hk hr.1
  cases h with
  | same => rfl
  | hold r w hfree hview =>
      rcases Slot.free_iff.mp hfree with hn | ⟨r', hr'⟩
      · rw [hl] at hn
        cases hn
      · exact absurd hr' (hown r')
  | commit => exact Slot.commit_of_not_own hown
  | rollback => exact Slot.rollback_of_not_own hown

/-- A deleted row nobody holds stays as it is. -/
theorem of_dead (h : Turn me s s') (hc : s.current = none) (hl : s.lock = none) : s' = s := by
  have hown : ∀ r, s.lock ≠ some (me, r) := by simp [hl]
  cases h with
  | same => rfl
  | hold r w hfree hview =>
      rw [Slot.view_of_unlocked hl, hc] at hview
      cases hview
  | commit => exact Slot.commit_of_not_own hown
  | rollback => exact Slot.rollback_of_not_own hown

/-- Another caller's lock was there before. -/
theorem held_before (h : Turn me s s') (hl : s'.lock = some (k, v)) (hk : k ≠ me) : s' = s := by
  cases h with
  | same => rfl
  | hold r w hfree hview =>
      simp only [Slot.hold, Option.some.injEq, Prod.mk.injEq] at hl
      exact absurd hl.1.symm hk
  | commit =>
      by_cases hown : ∃ r, s.lock = some (me, r)
      · obtain ⟨r, hr⟩ := hown
        rw [Slot.commit_of_own hr] at hl
        cases hl
      · exact Slot.commit_of_not_own fun r hr => hown ⟨r, hr⟩
  | rollback =>
      by_cases hown : ∃ r, s.lock = some (me, r)
      · obtain ⟨r, hr⟩ := hown
        rw [Slot.rollback_of_own hr] at hl
        cases hl
      · exact Slot.rollback_of_not_own fun r hr => hown ⟨r, hr⟩

/-- A new version is what the caller held, under the caller's name. -/
theorem versions (h : Turn me s s') :
    s'.versions = s.versions ∨
      ∃ v, s.lock = some (me, v) ∧ s' = ⟨⟨some me, v⟩ :: s.versions, none⟩ := by
  cases h with
  | same => exact .inl rfl
  | hold r w hfree hview => exact .inl rfl
  | commit =>
      by_cases hown : ∃ r, s.lock = some (me, r)
      · obtain ⟨r, hr⟩ := hown
        exact .inr ⟨r, hr, Slot.commit_of_own hr⟩
      · exact .inl (by rw [Slot.commit_of_not_own fun r hr => hown ⟨r, hr⟩])
  | rollback =>
      left
      unfold Slot.rollback
      split
      · split <;> rfl
      · rfl

/-- Versions are only added. -/
theorem suffix (h : Turn me s s') : ∃ pre, s'.versions = pre ++ s.versions := by
  rcases h.versions with hv | ⟨v, -, rfl⟩
  · exact ⟨[], hv⟩
  · exact ⟨[_], rfl⟩

theorem commit_suffix (me : Nat) (s : Slot Row) :
    ∃ pre, (s.commit me).versions = pre ++ s.versions := by
  have hturn : Turn me s (s.commit me) := .commit
  exact hturn.suffix

theorem version_before (h : Turn me s s') {x : Version Row} (hx : x ∈ s'.versions)
    (hk : x.writer = some k) (hne : k ≠ me) : x ∈ s.versions := by
  rcases h.versions with hv | ⟨v, -, rfl⟩
  · rwa [hv] at hx
  · rcases List.mem_cons.mp hx with rfl | hx
    · exact absurd (Option.some.inj hk).symm hne
    · exact hx

end Slot.Turn

/-- What a caller's operation makes of a table. -/
inductive Effect (me : Nat) (t : Table Row) : Table Row → Prop
  | none : Effect me t t
  | hold {i : Nat} {s : Slot Row} {r : Row} {v : Option Row} (hs : t[i]? = some s)
      (hfree : s.free me = true) (hview : s.view me = some r) : Effect me t (t.set i (s.hold me v))
  | insert (r : Row) : Effect me t (t ++ [Slot.fresh me r])
  | commit : Effect me t (t.map (Slot.commit me))
  | rollback : Effect me t (t.map (Slot.rollback me))

namespace Effect

variable {me d : Nat} {t t' : Table Row} {s s' : Slot Row}

theorem old (h : Effect me t t') (hs : t[d]? = some s) : ∃ s', t'[d]? = some s' ∧ s.Turn me s' := by
  cases h with
  | none => exact ⟨s, hs, .same⟩
  | @hold i s₁ r v hi hfree hview =>
      by_cases hd : i = d
      · subst hd
        obtain rfl : s₁ = s := Option.some.inj (hi.symm.trans hs)
        refine ⟨_, ?_, .hold r v hfree hview⟩
        rw [List.getElem?_set_self', hs]
        rfl
      · exact ⟨s, by rw [List.getElem?_set_ne hd, hs], .same⟩
  | insert r =>
      exact ⟨s, by rw [List.getElem?_append_left (List.getElem?_eq_some_iff.mp hs).1, hs], .same⟩
  | commit => exact ⟨_, by rw [List.getElem?_map, hs]; rfl, .commit⟩
  | rollback => exact ⟨_, by rw [List.getElem?_map, hs]; rfl, .rollback⟩

theorem new (h : Effect me t t') (hs : t'[d]? = some s') :
    (∃ s, t[d]? = some s ∧ s.Turn me s') ∨
      d = t.length ∧ ∃ r, s' = Slot.fresh me r ∧ t' = t ++ [Slot.fresh me r] := by
  by_cases hd : d < t.length
  · obtain ⟨s₁, hs₁, hturn⟩ := h.old (List.getElem?_eq_getElem hd)
    obtain rfl : s₁ = s' := Option.some.inj (hs₁.symm.trans hs)
    exact .inl ⟨_, List.getElem?_eq_getElem hd, hturn⟩
  · have hlen := (List.getElem?_eq_some_iff.mp hs).1
    cases h with
    | none => exact absurd hlen hd
    | hold => exact absurd (by simpa using hlen) hd
    | insert r =>
        rcases get_snoc_cases hs with ⟨rfl, rfl⟩ | hold
        · exact .inr ⟨rfl, r, rfl, rfl⟩
        · exact absurd (List.getElem?_eq_some_iff.mp hold).1 hd
    | commit => exact absurd (by simpa using hlen) hd
    | rollback => exact absurd (by simpa using hlen) hd

/-- What has been committed is on record. -/
theorem version_stays (h : Effect me t t') (hs : t[d]? = some s) {x : Version Row}
    (hx : x ∈ s.versions) : ∃ s', t'[d]? = some s' ∧ x ∈ s'.versions := by
  obtain ⟨s', hs', hturn⟩ := h.old hs
  obtain ⟨pre, hpre⟩ := hturn.suffix
  exact ⟨s', hs', by rw [hpre]; exact List.mem_append_right _ hx⟩

/-- What is in a row now was there before, or the caller has just committed it. -/
theorem current_cases (h : Effect me t t') (hs : t'[d]? = some s') {r : Row}
    (hc : s'.current = some r) : (∃ s, t[d]? = some s ∧ s.current = some r) ∨
      ∃ s, t[d]? = some s ∧ s.lock = some (me, some r) ∧ ⟨some me, some r⟩ ∈ s'.versions := by
  rcases h.new hs with ⟨s, hold, hturn⟩ | ⟨-, r', rfl, -⟩
  · rcases hturn.versions with hv | ⟨v, hl, rfl⟩
    · exact .inl ⟨s, hold, by rw [← hc, Slot.current_of_versions hv]⟩
    · obtain rfl : v = some r := hc
      exact .inr ⟨s, hold, hl, List.mem_cons_self⟩
  · cases hc

/-- What is in a row stays there, unless the caller commits something else. -/
theorem current_stays (h : Effect me t t') (hs : t[d]? = some s) {r : Row}
    (hc : s.current = some r) : ∃ s', t'[d]? = some s' ∧
      (s'.current = some r ∨ ∃ v, s.lock = some (me, v) ∧ s'.current = v) := by
  obtain ⟨s', hs', hturn⟩ := h.old hs
  refine ⟨s', hs', ?_⟩
  rcases hturn.versions with hv | ⟨v, hl, rfl⟩
  · exact .inl (by rw [Slot.current_of_versions hv, hc])
  · exact .inr ⟨v, hl, rfl⟩

end Effect

/-! ### Who holds what -/

/-- Caller `k` holds row `d` and will leave `v` there. -/
def Table.Locked (t : Table Row) (k d : Nat) (v : Option Row) : Prop :=
  ∃ s, t[d]? = some s ∧ s.lock = some (k, v)

/-- The rows caller `k` holds are exactly these. -/
def Table.Holds (t : Table Row) (k : Nat) (held : List (Nat × Option Row)) : Prop :=
  ∀ d v, t.Locked k d v ↔ (d, v) ∈ held

namespace Effect

variable {me k d : Nat} {t t' : Table Row} {v : Option Row} {held : List (Nat × Option Row)}

/-- What another caller holds does not change. -/
theorem locked_iff (h : Effect me t t') (hk : k ≠ me) : t'.Locked k d v ↔ t.Locked k d v := by
  constructor
  · rintro ⟨s', hs', hl⟩
    rcases h.new hs' with ⟨s, hs, hturn⟩ | ⟨-, r, rfl, -⟩
    · obtain rfl := hturn.held_before hl hk
      exact ⟨s', hs, hl⟩
    · simp only [Slot.fresh, Option.some.injEq, Prod.mk.injEq] at hl
      exact absurd hl.1.symm hk
  · rintro ⟨s, hs, hl⟩
    obtain ⟨s', hs', hturn⟩ := h.old hs
    obtain rfl := hturn.of_held hl hk
    exact ⟨s', hs', hl⟩

theorem holds_other (h : Effect me t t') (hk : k ≠ me) (hheld : t.Holds k held) :
    t'.Holds k held := fun d v => (h.locked_iff hk).trans (hheld d v)

/-- A held row is the same row afterwards. -/
theorem slot_of_held (h : Effect me t t') {s : Slot Row} (hs : t[d]? = some s)
    (hl : s.lock = some (k, v)) (hk : k ≠ me) : t'[d]? = some s := by
  obtain ⟨s', hs', hturn⟩ := h.old hs
  obtain rfl := hturn.of_held hl hk
  exact hs'

end Effect

/-- A caller sees what is committed in a row it does not hold. -/
theorem Table.Holds.view {me d : Nat} {t : Table Row} {held : List (Nat × Option Row)}
    (h : t.Holds me held) {s : Slot Row} (hs : t[d]? = some s) (hd : ∀ v, (d, v) ∉ held) :
    s.view me = s.current := by
  cases hl : s.lock with
  | none => exact Slot.view_of_unlocked hl me
  | some l =>
      obtain ⟨k, v⟩ := l
      by_cases hk : k = me
      · subst hk
        exact absurd ((h d v).mp ⟨s, hs, hl⟩) (hd v)
      · exact Slot.view_of_other hl hk

/-- A statement finds what is committed in a row the caller does not hold. -/
theorem Table.Holds.hits {me d : Nat} {t : Table Row} {held : List (Nat × Option Row)}
    (h : t.Holds me held) {s : Slot Row} (hs : t[d]? = some s) (hd : ∀ v, (d, v) ∉ held) {r : Row}
    (hcur : s.current = some r) {p : Row → Bool} (hp : p r = true) : s.hits me p = true := by
  rw [Slot.hits, h.view hs hd, hcur, Option.any_some]
  exact hp

/-- A row the caller can take and does not hold is not locked. -/
theorem Table.Holds.unlocked {me d : Nat} {t : Table Row} {held : List (Nat × Option Row)}
    (h : t.Holds me held) {s : Slot Row} (hs : t[d]? = some s) (hfree : s.free me = true)
    (hd : ∀ v, (d, v) ∉ held) : s.lock = none := by
  rcases Slot.free_iff.mp hfree with hn | ⟨v, hl⟩
  · exact hn
  · exact absurd ((h d v).mp ⟨s, hs, hl⟩) (hd v)

theorem Table.Holds.commit {me : Nat} (t : Table Row) :
    Table.Holds (t.map (Slot.commit me)) me [] := by
  intro d v
  simp only [List.not_mem_nil, iff_false]
  rintro ⟨s', hs', hl⟩
  rw [List.getElem?_map] at hs'
  obtain ⟨s, hs, rfl⟩ := Option.map_eq_some_iff.mp hs'
  by_cases hown : ∃ r, s.lock = some (me, r)
  · obtain ⟨r, hr⟩ := hown
    rw [Slot.commit_of_own hr] at hl
    cases hl
  · rw [Slot.commit_of_not_own fun r hr => hown ⟨r, hr⟩] at hl
    exact hown ⟨v, hl⟩

theorem Table.Holds.rollback {me : Nat} (t : Table Row) :
    Table.Holds (t.map (Slot.rollback me)) me [] := by
  intro d v
  simp only [List.not_mem_nil, iff_false]
  rintro ⟨s', hs', hl⟩
  rw [List.getElem?_map] at hs'
  obtain ⟨s, hs, rfl⟩ := Option.map_eq_some_iff.mp hs'
  by_cases hown : ∃ r, s.lock = some (me, r)
  · obtain ⟨r, hr⟩ := hown
    rw [Slot.rollback_of_own hr] at hl
    cases hl
  · rw [Slot.rollback_of_not_own fun r hr => hown ⟨r, hr⟩] at hl
    exact hown ⟨v, hl⟩

theorem Table.Holds.hold {me i : Nat} {t : Table Row} {held : List (Nat × Option Row)}
    (h : t.Holds me held) {s : Slot Row} (hs : t[i]? = some s) (v : Option Row)
    (hi : ∀ w, (i, w) ∉ held) : Table.Holds (t.set i (s.hold me v)) me (held ++ [(i, v)]) := by
  intro d w
  have hlt := (List.getElem?_eq_some_iff.mp hs).1
  by_cases hd : i = d
  · subst hd
    constructor
    · rintro ⟨s', hs', hl⟩
      rw [List.getElem?_set_self hlt] at hs'
      obtain rfl := Option.some.inj hs'
      simp only [Slot.hold, Option.some.injEq, Prod.mk.injEq, true_and] at hl
      simp [hl]
    · intro hmem
      rcases List.mem_append.mp hmem with hmem | hmem
      · exact absurd hmem (hi w)
      · obtain rfl : w = v := by simpa using hmem
        exact ⟨_, List.getElem?_set_self hlt, rfl⟩
  · have hne : (d, w) ≠ (i, v) := fun hc => hd (Prod.mk.inj hc).1.symm
    rw [List.mem_append, List.mem_singleton, or_iff_left hne, ← h d w]
    unfold Table.Locked
    rw [List.getElem?_set_ne hd]

theorem Table.Holds.insert {me : Nat} {t : Table Row} {held : List (Nat × Option Row)}
    (h : t.Holds me held) (r : Row) :
    Table.Holds (t ++ [Slot.fresh me r]) me (held ++ [(t.length, some r)]) := by
  intro d w
  constructor
  · rintro ⟨s', hs', hl⟩
    rcases get_snoc_cases hs' with ⟨rfl, rfl⟩ | hold
    · simp only [Slot.fresh, Option.some.injEq, Prod.mk.injEq, true_and] at hl
      simp [← hl]
    · exact List.mem_append_left _ ((h d w).mp ⟨s', hold, hl⟩)
  · intro hmem
    rcases List.mem_append.mp hmem with hmem | hmem
    · obtain ⟨s, hs, hl⟩ := (h d w).mpr hmem
      exact ⟨s, by rw [List.getElem?_append_left (List.getElem?_eq_some_iff.mp hs).1, hs], hl⟩
    · obtain ⟨rfl, rfl⟩ : d = t.length ∧ w = some r := by simpa using hmem
      exact ⟨_, List.getElem?_concat_length, rfl⟩

/-! ### The parts of a statement -/

namespace SqlOp

variable {me : Nat} {out : Outcome} {t t' : Table Row}

theorem answer_begin {r : Reply (.begin : SqlOp Row)}
    (h : answer me .begin out t = some (t', r)) : t' = t := by
  cases out <;> cases h <;> rfl

theorem answer_select {p : Row → Bool} {r : Reply (.select p)}
    (h : answer me (.select p) out t = some (t', r)) :
    t' = t ∧ (r = Except.ok ((t.filterMap (Slot.view me)).filter p) ∨ r = Except.error .other) := by
  cases out <;> cases h
  · exact ⟨rfl, .inl rfl⟩
  · exact ⟨rfl, .inr rfl⟩

theorem answer_scan {p : Row → Bool} {r : Reply (.scan p)}
    (h : answer me (.scan p) out t = some (t', r)) :
    t' = t ∧ (r = Except.ok (matching me p t) ∨ r = Except.error .other) := by
  cases out <;> cases h
  · exact ⟨rfl, .inl rfl⟩
  · exact ⟨rfl, .inr rfl⟩

theorem answer_commit {r : Reply (.commit : SqlOp Row)}
    (h : answer me .commit out t = some (t', r)) :
    t' = t.map (Slot.commit me) ∧ r = Except.ok () ∨
      t' = t.map (Slot.rollback me) ∧ r = Except.error .other := by
  cases out <;> cases h
  · exact .inl ⟨rfl, rfl⟩
  · exact .inr ⟨rfl, rfl⟩

theorem answer_rollback {r : Reply (.rollback : SqlOp Row)}
    (h : answer me .rollback out t = some (t', r)) : t' = t.map (Slot.rollback me) := by
  cases out <;> cases h <;> rfl

/-- Visiting a row takes it if it still matches, and otherwise does nothing. -/
theorem answer_visit {i : Nat} {p : Row → Bool} {f : Row → Option Row} {r : Reply (.visit i p f)}
    (h : answer me (.visit i p f) out t = some (t', r)) :
    (t' = t ∧ (r = Except.error .other ∨
        r = Except.ok [] ∧ ∀ s, t[i]? = some s → s.free me = true ∧ s.hits me p = false)) ∨
      ∃ s a, t[i]? = some s ∧ s.free me = true ∧ s.view me = some a ∧ p a = true ∧
        t' = t.set i (s.hold me (f a)) ∧ r = Except.ok [(f a).getD a] := by
  cases out with
  | fault =>
      cases h
      exact .inl ⟨rfl, .inl rfl⟩
  | done key =>
      simp only [answer] at h
      split at h
      · rename_i s hs
        obtain ⟨hfree, h⟩ := Option.ite_none_right_eq_some.mp h
        cases h
        rcases Slot.touch_cases me p f s with ⟨ht, ha⟩ | ⟨a, hv, hp, ht, ha⟩
        · refine .inl ⟨?_, .inr ⟨by rw [ha], ?_⟩⟩
          · obtain ⟨hlt, hget⟩ := List.getElem?_eq_some_iff.mp hs
            rw [ht, ← hget]
            exact List.set_getElem_self hlt
          · intro s' hs'
            obtain rfl : s = s' := Option.some.inj (hs.symm.trans hs')
            refine ⟨hfree, ?_⟩
            unfold Slot.touch at ht
            unfold Slot.affected at ha
            unfold Slot.hits
            cases hv : s.view me with
            | none => rfl
            | some a =>
                rw [hv] at ha
                by_cases hp : p a = true
                · simp [hp] at ha
                · simpa using hp
        · exact .inr ⟨s, a, hs, hfree, hv, hp, by rw [ht], by rw [ha]⟩
      · rename_i hs
        cases h
        refine .inl ⟨rfl, .inr ⟨rfl, fun s' hs' => ?_⟩⟩
        rw [hs] at hs'
        cases hs'

/-- Inserting within a transaction adds a row only its caller sees. -/
theorem answer_insert {mk : Nat → Row} {clash : Row → Row → Bool} {r : Reply (.insert .tx mk clash)}
    (h : answer me (.insert .tx mk clash) out t = some (t', r)) :
    (t' = t ∧ ∃ e, r = Except.error e) ∨
      ∃ key, out = .done key ∧ duplicate me (clash (mk key)) t = false ∧
        contended me (clash (mk key)) t = false ∧ t' = t ++ [Slot.fresh me (mk key)] ∧
        r = Except.ok (mk key) := by
  cases out with
  | fault =>
      cases h
      exact .inl ⟨rfl, _, rfl⟩
  | done key =>
      simp only [answer] at h
      split at h
      · cases h
        exact .inl ⟨rfl, _, rfl⟩
      · rename_i hdup
        split at h
        · cases h
        · rename_i hcon
          cases h
          exact .inr ⟨key, rfl, by simpa using hdup, by simpa using hcon, rfl, rfl⟩

/-- The operations a program asks for once its statements are taken apart. -/
inductive Part : SqlOp Row → Prop
  | begin : Part .begin
  | select (p : Row → Bool) : Part (.select p)
  | insert (mk : Nat → Row) (clash : Row → Row → Bool) : Part (.insert .tx mk clash)
  | commit : Part .commit
  | rollback : Part .rollback
  | scan (p : Row → Bool) : Part (.scan p)
  | visit (i : Nat) (p : Row → Bool) (f : Row → Option Row) : Part (.visit i p f)

theorem Part.effect {o : SqlOp Row} (ho : o.Part) {r : o.Reply}
    (h : answer me o out t = some (t', r)) : Effect me t t' := by
  cases ho with
  | begin =>
      rw [answer_begin h]
      exact .none
  | select p =>
      rw [(answer_select h).1]
      exact .none
  | insert mk clash =>
      rcases answer_insert h with ⟨rfl, -⟩ | ⟨key, -, -, -, rfl, -⟩
      · exact .none
      · exact .insert _
  | commit =>
      rcases answer_commit h with ⟨rfl, -⟩ | ⟨rfl, -⟩
      · exact .commit
      · exact .rollback
  | rollback =>
      rw [answer_rollback h]
      exact .rollback
  | scan p =>
      rw [(answer_scan h).1]
      exact .none
  | visit i p f =>
      rcases answer_visit h with ⟨rfl, -⟩ | ⟨s, a, hs, hfree, hv, -, rfl, -⟩
      · exact .none
      · exact .hold hs hfree hv

/-- Only a commit adds versions. -/
theorem Part.versions {o : SqlOp Row} (ho : o.Part) {r : o.Reply}
    (h : answer me o out t = some (t', r)) :
    (o = .commit ∧ t' = t.map (Slot.commit me)) ∨ ∀ {d : Nat} {s' : Slot Row}, t'[d]? = some s' →
      s'.versions = [] ∨ ∃ s, t[d]? = some s ∧ s'.versions = s.versions := by
  have hrollback : ∀ {d : Nat} {s' : Slot Row}, (t.map (Slot.rollback me))[d]? = some s' →
      s'.versions = [] ∨ ∃ s, t[d]? = some s ∧ s'.versions = s.versions := by
    intro d s' hs'
    rw [List.getElem?_map] at hs'
    obtain ⟨s, hs, rfl⟩ := Option.map_eq_some_iff.mp hs'
    exact .inr ⟨s, hs, Slot.versions_rollback me s⟩
  cases ho with
  | begin =>
      rw [answer_begin h]
      exact .inr fun hs => .inr ⟨_, hs, rfl⟩
  | select p =>
      rw [(answer_select h).1]
      exact .inr fun hs => .inr ⟨_, hs, rfl⟩
  | scan p =>
      rw [(answer_scan h).1]
      exact .inr fun hs => .inr ⟨_, hs, rfl⟩
  | insert mk clash =>
      rcases answer_insert h with ⟨rfl, -⟩ | ⟨key, -, -, -, rfl, -⟩
      · exact .inr fun hs => .inr ⟨_, hs, rfl⟩
      · refine .inr fun hs => ?_
        rcases get_snoc_cases hs with ⟨-, rfl⟩ | hold
        · exact .inl rfl
        · exact .inr ⟨_, hold, rfl⟩
  | commit =>
      rcases answer_commit h with ⟨rfl, -⟩ | ⟨rfl, -⟩
      · exact .inl ⟨rfl, rfl⟩
      · exact .inr hrollback
  | rollback =>
      rw [answer_rollback h]
      exact .inr hrollback
  | visit i p f =>
      rcases answer_visit h with ⟨rfl, -⟩ | ⟨s, a, hs, -, -, -, rfl, -⟩
      · exact .inr fun hs => .inr ⟨_, hs, rfl⟩
      · refine .inr fun hs' => ?_
        rcases get_set_cases hs' with ⟨rfl, rfl⟩ | ⟨-, hold⟩
        · exact .inr ⟨s, hs, rfl⟩
        · exact .inr ⟨_, hold, rfl⟩

end SqlOp

/-! ### Rows a caller is changing, and rows it has changed -/

namespace Table

variable {me k d : Nat} {t t' : Table Row} {old new : Row}

/-- Caller `k` holds row `d`, which is `old` until `k` commits and `new` from then on. -/
def Pending (t : Table Row) (k d : Nat) (old new : Row) : Prop :=
  ∃ s, t[d]? = some s ∧ s.lock = some (k, some new) ∧ s.current = some old

/-- Caller `k` has made `new` of row `d` where it was `old`. -/
def Wrote (t : Table Row) (k d : Nat) (old new : Row) : Prop :=
  ∃ s pre w post, t[d]? = some s ∧ s.versions = pre ++ ⟨some k, some new⟩ :: ⟨w, some old⟩ :: post

/-- The versions caller `k` has committed are exactly these. -/
def WroteOnly (t : Table Row) (k : Nat) (l : List (Nat × Option Row)) : Prop :=
  ∀ d v, (∃ s, t[d]? = some s ∧ ⟨some k, v⟩ ∈ s.versions) ↔ (d, v) ∈ l

theorem Wrote.mem (h : t.Wrote k d old new) :
    ∃ s, t[d]? = some s ∧ ⟨some k, some new⟩ ∈ s.versions := by
  obtain ⟨s, pre, w, post, hs, hv⟩ := h
  exact ⟨s, hs, by simp [hv]⟩

theorem Pending.other (h : t.Pending k d old new) (he : Effect me t t') (hk : k ≠ me) :
    t'.Pending k d old new := by
  obtain ⟨s, hs, hl, hc⟩ := h
  exact ⟨s, he.slot_of_held hs hl hk, hl, hc⟩

theorem Wrote.effect (h : t.Wrote k d old new) (he : Effect me t t') : t'.Wrote k d old new := by
  obtain ⟨s, pre, w, post, hs, hv⟩ := h
  obtain ⟨s', hs', hturn⟩ := he.old hs
  obtain ⟨more, hmore⟩ := hturn.suffix
  exact ⟨s', more ++ pre, w, post, hs', by rw [hmore, hv, List.append_assoc]⟩

theorem Pending.commit (h : t.Pending k d old new) :
    Table.Wrote (t.map (Slot.commit k)) k d old new := by
  obtain ⟨s, hs, hl, hc⟩ := h
  refine ⟨s.commit k, [], ?_⟩
  rw [Slot.commit_of_own hl]
  cases hv : s.versions with
  | nil => simp [Slot.current, hv] at hc
  | cons v post =>
      obtain ⟨w, r⟩ := v
      obtain rfl : r = some old := by simpa [Slot.current, hv] using hc
      refine ⟨w, post, ?_, rfl⟩
      rw [List.getElem?_map, hs, Option.map_some, Slot.commit_of_own hl, hv]

/-- Taking a row for an update. -/
theorem Pending.hold {s : Slot Row} (hs : t[d]? = some s) (hl : s.lock = none)
    (hv : s.view me = some old) : Table.Pending (t.set d (s.hold me (some new))) me d old new := by
  refine ⟨_, List.getElem?_set_self (List.getElem?_eq_some_iff.mp hs).1, rfl, ?_⟩
  rw [Slot.view_of_unlocked hl] at hv
  exact hv

theorem Pending.set_other {e : Nat} {s : Slot Row} (h : t.Pending k d old new) (he : e ≠ d) :
    Table.Pending (t.set e s) k d old new := by
  obtain ⟨s', hs', hl, hc⟩ := h
  exact ⟨s', by rw [List.getElem?_set_ne he, hs'], hl, hc⟩

end Table

theorem mem_matching {me i : Nat} {p : Row → Bool} {t : Table Row} :
    i ∈ SqlOp.matching me p t ↔ ∃ s, t[i]? = some s ∧ s.hits me p = true := by
  simp only [SqlOp.matching, List.mem_filter, List.mem_range]
  constructor
  · rintro ⟨-, hany⟩
    cases hs : t[i]? with
    | none => simp [hs] at hany
    | some s => exact ⟨s, rfl, by simpa [hs] using hany⟩
  · rintro ⟨s, hs, hit⟩
    exact ⟨(List.getElem?_eq_some_iff.mp hs).1, by rw [hs]; exact hit⟩

theorem nodup_matching (me : Nat) (p : Row → Bool) (t : Table Row) :
    (SqlOp.matching me p t).Nodup := List.nodup_range.filter _

/-- A statement that can only match one row has one row to visit. -/
theorem matching_eq_singleton {me b : Nat} {p : Row → Bool} {t : Table Row} {s : Slot Row}
    (hs : t[b]? = some s) (hit : s.hits me p = true)
    (huniq : ∀ i s', t[i]? = some s' → s'.hits me p = true → i = b) :
    SqlOp.matching me p t = [b] := by
  refine List.perm_singleton.mp <| (List.perm_ext_iff_of_nodup (nodup_matching me p t)
    (by simp)).mpr fun i => ?_
  rw [mem_matching, List.mem_singleton]
  constructor
  · rintro ⟨s', hs', hit'⟩
    exact huniq i s' hs' hit'
  · rintro rfl
    exact ⟨s, hs, hit⟩

/-- Changing a row the clause does not match, to another such row, changes no match. -/
theorem matching_set {me a : Nat} {p : Row → Bool} {t : Table Row} {s s' : Slot Row}
    (hs : t[a]? = some s) (hhits : s'.hits me p = s.hits me p) :
    SqlOp.matching me p (t.set a s') = SqlOp.matching me p t := by
  unfold SqlOp.matching
  rw [List.length_set]
  refine List.filter_congr fun i _ => ?_
  by_cases hi : a = i
  · subst hi
    rw [List.getElem?_set_self (List.getElem?_eq_some_iff.mp hs).1, hs, Option.any_some,
      Option.any_some, hhits]
  · rw [List.getElem?_set_ne hi]

/-- A statement that can only match one row has at most one row to visit. -/
theorem matching_length_le_one {me : Nat} {p : Row → Bool} {t : Table Row}
    (huniq : ∀ {a b : Nat} {s s' : Slot Row}, t[a]? = some s → s.hits me p = true →
      t[b]? = some s' → s'.hits me p = true → a = b) : (SqlOp.matching me p t).length ≤ 1 := by
  have hnodup := nodup_matching me p t
  have hmem : ∀ i, i ∈ SqlOp.matching me p t → ∃ s, t[i]? = some s ∧ s.hits me p = true :=
    fun i => mem_matching.mp
  cases hm : SqlOp.matching me p t with
  | nil => exact Nat.zero_le 1
  | cons a rest =>
      cases rest with
      | nil => exact Nat.le_refl 1
      | cons b rest =>
          rw [hm] at hnodup hmem
          obtain ⟨s, hs, hit⟩ := hmem a (by simp)
          obtain ⟨s', hs', hit'⟩ := hmem b (by simp)
          obtain rfl := huniq hs hit hs' hit'
          simp at hnodup

/-! ### Keeping the books -/

/-- What every call holds and has committed, read off its phase. -/
structure Ledger {Op : Type} {Reply : Op → Type} {Call α : Type} (P : Protocol Op Reply Call α)
    (held : P.Phase → Option (List (Nat × Option Row)))
    (wrote : P.Phase → List (Nat × Option Row)) (t : Table Row) (gs : List P.Ghost) : Prop where
  holds : ∀ {k : Nat} {g : P.Ghost} {H : List (Nat × Option Row)}, gs[k]? = some g →
    held g.phase = some H → t.Holds k H
  known : ∀ {k d : Nat} {v : Option Row}, t.Locked k d v → k < gs.length
  written : ∀ {k d : Nat} {s : Slot Row} {v : Option Row}, t[d]? = some s →
    ⟨some k, v⟩ ∈ s.versions → ∃ g, gs[k]? = some g ∧ (d, v) ∈ wrote g.phase

namespace Ledger

variable {Op : Type} {Reply : Op → Type} {Call α : Type} {P : Protocol Op Reply Call α}
  {held : P.Phase → Option (List (Nat × Option Row))} {wrote : P.Phase → List (Nat × Option Row)}
  {t t' : Table Row} {gs : List P.Ghost} {i : Nat} {g g' : P.Ghost}

/-- The other calls' books after an effect of call `i`. -/
theorem effect (h : Ledger P held wrote t gs) (hg : gs[i]? = some g) (he : Effect i t t')
    (hheld : ∀ H, held g'.phase = some H → t'.Holds i H)
    (hwrote : ∀ {d : Nat} {s : Slot Row} {v : Option Row}, t'[d]? = some s →
      ⟨some i, v⟩ ∈ s.versions → (d, v) ∈ wrote g'.phase) :
    Ledger P held wrote t' (gs.set i g') := by
  have hlt := (List.getElem?_eq_some_iff.mp hg).1
  refine ⟨?_, ?_, ?_⟩
  · intro k x H hk hH
    rcases get_set_cases hk with ⟨rfl, rfl⟩ | ⟨hne, hk⟩
    · exact hheld H hH
    · exact he.holds_other hne (h.holds hk hH)
  · intro k d v hl
    rw [List.length_set]
    by_cases hk : k = i
    · rw [hk]
      exact hlt
    · exact h.known ((he.locked_iff hk).mp hl)
  · intro k d s v hs hv
    by_cases hk : k = i
    · subst hk
      exact ⟨g', List.getElem?_set_self hlt, hwrote hs hv⟩
    · rcases he.new hs with ⟨s₀, hs₀, hturn⟩ | ⟨-, r, rfl, -⟩
      · obtain ⟨x, hx, hmem⟩ := h.written hs₀ (hturn.version_before hv rfl hk)
        exact ⟨x, by rw [List.getElem?_set_ne (fun hc => hk hc.symm), hx], hmem⟩
      · simp [Slot.fresh] at hv

/-- An effect that commits nothing leaves the caller's own versions as they are. -/
theorem written_of_versions (h : Ledger P held wrote t gs) (hg : gs[i]? = some g)
    (hversions : ∀ {d : Nat} {s' : Slot Row}, t'[d]? = some s' → s'.versions = [] ∨
      ∃ s, t[d]? = some s ∧ s'.versions = s.versions)
    (hsub : ∀ x ∈ wrote g.phase, x ∈ wrote g'.phase) {d : Nat} {s : Slot Row} {v : Option Row}
    (hs : t'[d]? = some s) (hv : ⟨some i, v⟩ ∈ s.versions) : (d, v) ∈ wrote g'.phase := by
  rcases hversions hs with hnil | ⟨s₀, hs₀, heq⟩
  · rw [hnil] at hv
    cases hv
  · rw [heq] at hv
    obtain ⟨x, hx, hmem⟩ := h.written hs₀ hv
    obtain rfl : g = x := Option.some.inj (hg.symm.trans hx)
    exact hsub _ hmem

/-- Nothing happened to the table. -/
theorem same (h : Ledger P held wrote t gs) (hg : gs[i]? = some g)
    (hheld : held g'.phase = held g.phase ∨ held g'.phase = none)
    (hsub : ∀ x ∈ wrote g.phase, x ∈ wrote g'.phase) : Ledger P held wrote t (gs.set i g') := by
  refine h.effect hg .none (fun H hH => ?_)
    (h.written_of_versions hg (fun hs => .inr ⟨_, hs, rfl⟩) hsub)
  rcases hheld with heq | hnone
  · rw [heq] at hH
    exact h.holds hg hH
  · rw [hnone] at hH
    cases hH

/-- The call took a row. -/
theorem take (h : Ledger P held wrote t gs) (hg : gs[i]? = some g) {d : Nat} {s : Slot Row}
    {r : Row} {v : Option Row} (hs : t[d]? = some s) (hfree : s.free i = true)
    (hview : s.view i = some r) {H : List (Nat × Option Row)} (hH : held g.phase = some H)
    (hH' : held g'.phase = some (H ++ [(d, v)])) (hd : ∀ w, (d, w) ∉ H)
    (hsub : ∀ x ∈ wrote g.phase, x ∈ wrote g'.phase) :
    Ledger P held wrote (t.set d (s.hold i v)) (gs.set i g') := by
  refine h.effect hg (.hold hs hfree hview) (fun H' hH₂ => ?_)
    (h.written_of_versions hg (fun {d' s'} hs' => ?_) hsub)
  · rw [hH'] at hH₂
    obtain rfl := Option.some.inj hH₂
    exact (h.holds hg hH).hold hs v hd
  · rcases get_set_cases hs' with ⟨rfl, rfl⟩ | ⟨-, hs'⟩
    · exact .inr ⟨s, hs, rfl⟩
    · exact .inr ⟨s', hs', rfl⟩

/-- The call added a row. -/
theorem insert (h : Ledger P held wrote t gs) (hg : gs[i]? = some g) {r : Row}
    {H : List (Nat × Option Row)} (hH : held g.phase = some H)
    (hH' : held g'.phase = some (H ++ [(t.length, some r)]))
    (hsub : ∀ x ∈ wrote g.phase, x ∈ wrote g'.phase) :
    Ledger P held wrote (t ++ [Slot.fresh i r]) (gs.set i g') := by
  refine h.effect hg (.insert r) (fun H' hH₂ => ?_)
    (h.written_of_versions hg (fun {d' s'} hs' => ?_) hsub)
  · rw [hH'] at hH₂
    obtain rfl := Option.some.inj hH₂
    exact (h.holds hg hH).insert r
  · rcases get_snoc_cases hs' with ⟨-, rfl⟩ | hs'
    · exact .inl rfl
    · exact .inr ⟨s', hs', rfl⟩

/-- The call committed what it held. -/
theorem commit (h : Ledger P held wrote t gs) (hg : gs[i]? = some g)
    {H : List (Nat × Option Row)} (hH : held g.phase = some H) (hH' : held g'.phase = some [])
    (hsub : ∀ x ∈ wrote g.phase, x ∈ wrote g'.phase) (hnew : ∀ x ∈ H, x ∈ wrote g'.phase) :
    Ledger P held wrote (t.map (Slot.commit i)) (gs.set i g') := by
  refine h.effect hg .commit (fun H' hH₂ => ?_) (fun {d s' v} hs' hv => ?_)
  · rw [hH'] at hH₂
    obtain rfl := Option.some.inj hH₂
    exact .commit t
  · rw [List.getElem?_map] at hs'
    obtain ⟨s, hs, rfl⟩ := Option.map_eq_some_iff.mp hs'
    rcases (Slot.Turn.commit : s.Turn i (s.commit i)).versions with heq | ⟨w, hl, heq⟩
    · rw [heq] at hv
      obtain ⟨x, hx, hmem⟩ := h.written hs hv
      obtain rfl : g = x := Option.some.inj (hg.symm.trans hx)
      exact hsub _ hmem
    · rw [heq] at hv
      rcases List.mem_cons.mp hv with hv | hv
      · obtain rfl : v = w := by simpa using hv
        exact hnew _ ((h.holds hg hH d v).mp ⟨s, hs, hl⟩)
      · obtain ⟨x, hx, hmem⟩ := h.written hs hv
        obtain rfl : g = x := Option.some.inj (hg.symm.trans hx)
        exact hsub _ hmem

/-- The call gave back what it held. -/
theorem rollback (h : Ledger P held wrote t gs) (hg : gs[i]? = some g)
    (hH' : ∀ H, held g'.phase = some H → H = [])
    (hsub : ∀ x ∈ wrote g.phase, x ∈ wrote g'.phase) :
    Ledger P held wrote (t.map (Slot.rollback i)) (gs.set i g') := by
  refine h.effect hg .rollback (fun H hH => ?_)
    (h.written_of_versions hg (fun {d s'} hs' => ?_) hsub)
  · rw [hH' H hH]
    exact .rollback t
  · rw [List.getElem?_map] at hs'
    obtain ⟨s, hs, rfl⟩ := Option.map_eq_some_iff.mp hs'
    refine .inr ⟨s, hs, ?_⟩
    rcases (Slot.Turn.rollback : s.Turn i (s.rollback i)).versions with heq | ⟨w, hl, -⟩
    · exact heq
    · rw [Slot.rollback_of_own hl]

/-- A new call holds nothing and has written nothing. -/
theorem spawn (h : Ledger P held wrote t gs) (hheld : ∀ H, held g'.phase = some H → H = []) :
    Ledger P held wrote t (gs ++ [g']) := by
  refine ⟨?_, ?_, ?_⟩
  · intro k x H hk hH
    rcases get_snoc_cases hk with ⟨rfl, rfl⟩ | hk
    · intro d v
      rw [hheld H hH]
      simp only [List.not_mem_nil, iff_false]
      exact fun hl => absurd (h.known hl) (Nat.lt_irrefl _)
    · exact h.holds hk hH
  · intro k d v hl
    rw [List.length_append]
    exact Nat.lt_add_right _ (h.known hl)
  · intro k d s v hs hv
    obtain ⟨x, hx, hmem⟩ := h.written hs hv
    exact ⟨x, by rw [List.getElem?_append_left (List.getElem?_eq_some_iff.mp hx).1, hx], hmem⟩

/-- Before any call, with nothing but the rows that were there from the start. -/
theorem start (rows : List Row) : Ledger P held wrote (rows.map Slot.loaded) [] := by
  have hslot : ∀ {d : Nat} {s : Slot Row}, (rows.map Slot.loaded)[d]? = some s →
      ∃ r, s = Slot.loaded r := by
    intro d s hs
    rw [List.getElem?_map] at hs
    obtain ⟨r, -, rfl⟩ := Option.map_eq_some_iff.mp hs
    exact ⟨r, rfl⟩
  refine ⟨by simp, ?_, ?_⟩
  · rintro k d v ⟨s, hs, hl⟩
    obtain ⟨r, rfl⟩ := hslot hs
    cases hl
  · intro k d s v hs hv
    obtain ⟨r, rfl⟩ := hslot hs
    simp [Slot.loaded] at hv

end Ledger

end Basis
