/-
Books for calls that add rows.

Where a row is added is decided by the table, and no phase of a call can name the
place.  So what a call holds and has committed is a fact about the table here,
`Tally`, with the places found in it, and not a function of the phase as in
`Basis/Books.lean`.  `Journal` is the invariant built from that; every kind of step
keeps it by one lemma.

Two things the rows themselves can keep: a part of them that no statement changes
(`Slot.Is`), which is what unique indexes look at, and who made their first version
(`Slot.Grows`).
-/
import Authnz.Basis.Books

namespace Basis

variable {Row : Type}

/-! ### What never changes about a row -/

namespace Slot

variable {I : Type} {ident : Row → I} {s : Slot Row} {a : I} {r : Row} {v : Option Row} {me : Nat}

/-- Whatever is or will be in this slot is a row with the identity `a`. -/
structure Is (ident : Row → I) (s : Slot Row) (a : I) : Prop where
  versions : ∀ {x : Version Row}, x ∈ s.versions → ∃ r, x.row = some r ∧ ident r = a
  lock : ∀ {k : Nat} {v : Option Row}, s.lock = some (k, v) → ∃ r, v = some r ∧ ident r = a

/-- The row has been in this slot, or will be. -/
def Bears (s : Slot Row) (r : Row) : Prop :=
  (∃ x ∈ s.versions, x.row = some r) ∨ ∃ k, s.lock = some (k, some r)

theorem Is.of_bears (h : s.Is ident a) (hr : s.Bears r) : ident r = a := by
  rcases hr with ⟨x, hx, hrow⟩ | ⟨k, hl⟩
  · obtain ⟨r', hr', ha⟩ := h.versions hx
    rw [hrow] at hr'
    rw [Option.some.inj hr', ha]
  · obtain ⟨r', hr', ha⟩ := h.lock hl
    rw [Option.some.inj hr', ha]

theorem bears_of_current (h : s.current = some r) : s.Bears r := by
  obtain ⟨x, hx, hrow⟩ := Option.bind_eq_some_iff.mp h
  exact .inl ⟨x, List.mem_of_mem_head? hx, hrow⟩

theorem bears_of_view (h : s.view me = some r) : s.Bears r := by
  cases hl : s.lock with
  | none =>
      rw [view_of_unlocked hl] at h
      exact bears_of_current h
  | some l =>
      obtain ⟨t, v⟩ := l
      by_cases ht : t = me
      · subst ht
        rw [view_of_own hl] at h
        exact .inr ⟨t, by rw [hl, h]⟩
      · rw [view_of_other hl ht] at h
        exact bears_of_current h

/-- A slot that was ever committed has a row. -/
theorem Is.current (h : s.Is ident a) (hv : s.versions ≠ []) :
    ∃ r, s.current = some r ∧ ident r = a := by
  obtain ⟨x, rest, hx⟩ := List.exists_cons_of_ne_nil hv
  obtain ⟨r, hr, ha⟩ := h.versions (by rw [hx]; exact List.mem_cons_self)
  exact ⟨r, by simp [Slot.current, hx, hr], ha⟩

theorem Is.commit (h : s.Is ident a) : (s.commit me).Is ident a := by
  by_cases hown : ∃ v, s.lock = some (me, v)
  · obtain ⟨v, hv⟩ := hown
    rw [commit_of_own hv]
    refine ⟨fun hx => ?_, fun hl => by cases hl⟩
    rcases List.mem_cons.mp hx with rfl | hx
    · exact h.lock hv
    · exact h.versions hx
  · rw [commit_of_not_own fun r hr => hown ⟨r, hr⟩]
    exact h

theorem Is.rollback (h : s.Is ident a) : (s.rollback me).Is ident a := by
  by_cases hown : ∃ v, s.lock = some (me, v)
  · obtain ⟨v, hv⟩ := hown
    rw [rollback_of_own hv]
    exact ⟨h.versions, fun hl => by cases hl⟩
  · rw [rollback_of_not_own fun r hr => hown ⟨r, hr⟩]
    exact h

theorem Is.hold (h : s.Is ident a) (hr : ident r = a) : (s.hold me (some r)).Is ident a := by
  refine ⟨h.versions, fun {k v} hl => ?_⟩
  obtain ⟨-, rfl⟩ : me = k ∧ some r = v := by simpa [Slot.hold] using hl
  exact ⟨r, rfl, hr⟩

theorem Is.fresh (me : Nat) (r : Row) : (Slot.fresh me r).Is ident (ident r) := by
  refine ⟨fun hx => (nomatch hx), fun {k v} hl => ?_⟩
  obtain ⟨-, rfl⟩ : me = k ∧ some r = v := by simpa [Slot.fresh] using hl
  exact ⟨r, rfl, rfl⟩

theorem Is.loaded (r : Row) : (Slot.loaded r).Is ident (ident r) := by
  refine ⟨fun hx => ?_, fun hl => by cases hl⟩
  cases List.mem_singleton.mp hx
  exact ⟨r, rfl, rfl⟩

theorem bears_of_commit (h : (s.commit me).Bears r) : s.Bears r := by
  by_cases hown : ∃ v, s.lock = some (me, v)
  · obtain ⟨v, hv⟩ := hown
    rw [commit_of_own hv] at h
    rcases h with ⟨x, hx, hrow⟩ | ⟨k, hl⟩
    · rcases List.mem_cons.mp hx with rfl | hx
      · exact .inr ⟨me, by rw [hv]; exact congrArg (fun v => some (me, v)) hrow⟩
      · exact .inl ⟨x, hx, hrow⟩
    · cases hl
  · rwa [commit_of_not_own fun r hr => hown ⟨r, hr⟩] at h

theorem bears_of_rollback (h : (s.rollback me).Bears r) : s.Bears r := by
  by_cases hown : ∃ v, s.lock = some (me, v)
  · obtain ⟨v, hv⟩ := hown
    rw [rollback_of_own hv] at h
    rcases h with hx | ⟨k, hl⟩
    · exact .inl hx
    · cases hl
  · rwa [rollback_of_not_own fun r hr => hown ⟨r, hr⟩] at h

/-! ### Who made the versions -/

/-- The first version was made by somebody of `P`, the later ones by others of `Q`. -/
structure Grows (P Q : Option Nat → Prop) (s : Slot Row) : Prop where
  first : ∀ {pre : List (Version Row)} {x : Version Row}, s.versions = pre ++ [x] → P x.writer
  later : ∀ {pre post : List (Version Row)} {x : Version Row}, s.versions = pre ++ x :: post →
    post ≠ [] → Q x.writer
  lock_first : ∀ {k : Nat} {v : Option Row}, s.lock = some (k, v) → s.versions = [] → P (some k)
  lock_later : ∀ {k : Nat} {v : Option Row}, s.lock = some (k, v) → s.versions ≠ [] → Q (some k)

variable {P Q : Option Nat → Prop}

theorem Grows.commit (h : s.Grows P Q) : (s.commit me).Grows P Q := by
  by_cases hown : ∃ v, s.lock = some (me, v)
  · obtain ⟨v, hv⟩ := hown
    rw [commit_of_own hv]
    refine ⟨fun {pre x} hx => ?_, fun {pre post x} hx hpost => ?_, fun hl => (nomatch hl),
      fun hl => (nomatch hl)⟩
    · cases pre with
      | nil =>
          obtain ⟨rfl, hnil⟩ := List.cons.inj hx
          exact h.lock_first hv hnil
      | cons y pre => exact h.first (List.cons.inj hx).2
    · cases pre with
      | nil =>
          obtain ⟨rfl, rfl⟩ := List.cons.inj hx
          exact h.lock_later hv hpost
      | cons y pre => exact h.later (List.cons.inj hx).2 hpost
  · rw [commit_of_not_own fun r hr => hown ⟨r, hr⟩]
    exact h

theorem Grows.rollback (h : s.Grows P Q) : (s.rollback me).Grows P Q := by
  by_cases hown : ∃ v, s.lock = some (me, v)
  · obtain ⟨v, hv⟩ := hown
    rw [rollback_of_own hv]
    exact ⟨h.first, h.later, fun hl => (nomatch hl), fun hl => (nomatch hl)⟩
  · rw [rollback_of_not_own fun r hr => hown ⟨r, hr⟩]
    exact h

theorem Grows.hold (h : s.Grows P Q) (hv : s.versions ≠ []) (hme : Q (some me)) :
    (s.hold me v).Grows P Q := by
  refine ⟨h.first, h.later, fun {k v} _ hnil => absurd hnil hv, fun {k v'} hl _ => ?_⟩
  obtain ⟨rfl, -⟩ : me = k ∧ v = v' := by simpa [Slot.hold] using hl
  exact hme

theorem Grows.fresh (hme : P (some me)) (r : Row) : (Slot.fresh me r).Grows P Q := by
  refine ⟨fun {pre x} hx => ?_, fun {pre post x} hx => ?_, fun {k v} hl _ => ?_,
    fun {k v} hl hv => absurd rfl hv⟩
  · simp [Slot.fresh] at hx
  · simp [Slot.fresh] at hx
  · obtain ⟨rfl, -⟩ : me = k ∧ some r = v := by simpa [Slot.fresh] using hl
    exact hme

theorem Grows.loaded (hnone : P none) (r : Row) : (Slot.loaded r).Grows P Q := by
  refine ⟨fun {pre x} hx => ?_, fun {pre post x} hx hpost => ?_, fun hl => (nomatch hl),
    fun hl => (nomatch hl)⟩
  · cases pre with
    | nil =>
        obtain rfl := (List.cons.inj hx).1
        exact hnone
    | cons y pre => simp [Slot.loaded] at hx
  · cases pre with
    | nil => exact absurd (List.cons.inj hx).2.symm hpost
    | cons y pre => simp [Slot.loaded] at hx

theorem Grows.mono {P' Q' : Option Nat → Prop} (h : s.Grows P Q) (hf : ∀ w, P w → P' w)
    (hl : ∀ w, Q w → Q' w) : s.Grows P' Q' :=
  ⟨fun hx => hf _ (h.first hx), fun hx hp => hl _ (h.later hx hp),
    fun hk hv => hf _ (h.lock_first hk hv), fun hk hv => hl _ (h.lock_later hk hv)⟩

/-- The one version that was made by nobody of `Q` is the first. -/
theorem Grows.first_of (h : s.Grows P Q) {x : Version Row} (hx : x ∈ s.versions)
    (hno : ¬ Q x.writer) : ∃ pre, s.versions = pre ++ [x] := by
  obtain ⟨pre, post, hv⟩ := List.append_of_mem hx
  by_cases hpost : post = []
  · exact ⟨pre, by rw [hv, hpost]⟩
  · exact absurd (h.later hv hpost) hno

theorem exists_first (hv : s.versions ≠ []) : ∃ pre x, s.versions = pre ++ [x] :=
  ⟨_, _, (List.dropLast_concat_getLast hv).symm⟩

end Slot

/-! ### Unique keys -/

/-- Two slots that bear rows with one key are one slot. -/
def Table.Keyed {K : Type} (key : Row → Option K) (t : Table Row) : Prop :=
  ∀ (d e : Nat) (s s' : Slot Row) (r r' : Row) (a : K), t[d]? = some s → t[e]? = some s' →
    s.Bears r → s'.Bears r' → key r = some a → key r' = some a → d = e

section Keyed

variable {I K : Type} {ident : Row → I} {key : Row → Option K} {clash : Row → Row → Bool}
  {me : Nat} {t t' : Table Row}

/-- An `INSERT` that goes through finds no row it clashes with, held, committed or seen. -/
theorem no_clash_of_insert {mk : Row} (his : ∀ {d : Nat} {s : Slot Row}, t[d]? = some s →
      ∃ a, s.Is ident a)
    (hclash : ∀ {r r' : Row}, ident r = ident r' → clash mk r = clash mk r')
    (hdup : SqlOp.duplicate me (clash mk) t = false)
    (hcon : SqlOp.contended me (clash mk) t = false) {d : Nat} {s : Slot Row} {r : Row}
    (hs : t[d]? = some s) (hr : s.Bears r) : clash mk r = false := by
  obtain ⟨a, hid⟩ := his hs
  have hmem := List.mem_of_getElem? hs
  have hsame : ∀ {r' : Row}, s.Bears r' → clash mk r' = false → clash mk r = false := by
    intro r' hr' hno
    rwa [hclash ((hid.of_bears hr).trans (hid.of_bears hr').symm)]
  have hdup' := List.any_eq_false.mp hdup s hmem
  have hcon' := List.any_eq_false.mp hcon s hmem
  cases hl : s.lock with
  | none =>
      have hv : s.versions ≠ [] := by
        rcases hr with ⟨x, hx, -⟩ | ⟨k, hk⟩
        · exact List.ne_nil_of_mem hx
        · rw [hl] at hk
          cases hk
      obtain ⟨r', hcur, -⟩ := hid.current hv
      refine hsame (Slot.bears_of_current hcur) ?_
      simpa [Slot.free, hl, Slot.view_of_unlocked hl, hcur] using hdup'
  | some l =>
      obtain ⟨k, v⟩ := l
      obtain ⟨r', rfl, -⟩ := hid.lock hl
      refine hsame (.inr ⟨k, hl⟩) ?_
      by_cases hk : k = me
      · subst hk
        simpa [Slot.free, hl, Slot.view_of_own hl] using hdup'
      · have hno := hcon'
        simp only [Slot.free, hl, Bool.and_eq_true, Bool.or_eq_true, not_and, not_or] at hno
        simpa using (hno (by simpa using hk)).2

/-- Slots that bear no key they did not bear before keep the keys unique. -/
theorem Table.Keyed.of_bears (h : t.Keyed key)
    (hsub : ∀ {d : Nat} {s' : Slot Row} {r : Row} {a : K}, t'[d]? = some s' → s'.Bears r →
      key r = some a → ∃ s r', t[d]? = some s ∧ s.Bears r' ∧ key r' = some a) : t'.Keyed key := by
  intro d e s s' r r' a hs hs' hr hr' ha ha'
  obtain ⟨s₁, r₁, hs₁, hr₁, ha₁⟩ := hsub hs hr ha
  obtain ⟨s₂, r₂, hs₂, hr₂, ha₂⟩ := hsub hs' hr' ha'
  exact h _ _ _ _ _ _ _ hs₁ hs₂ hr₁ hr₂ ha₁ ha₂

theorem Table.Keyed.commit (h : t.Keyed key) (me : Nat) :
    Table.Keyed key (t.map (Slot.commit me)) := by
  refine h.of_bears fun {d s' r a} hs' hr ha => ?_
  rw [List.getElem?_map] at hs'
  obtain ⟨s, hs, rfl⟩ := Option.map_eq_some_iff.mp hs'
  exact ⟨s, r, hs, Slot.bears_of_commit hr, ha⟩

theorem Table.Keyed.rollback (h : t.Keyed key) (me : Nat) :
    Table.Keyed key (t.map (Slot.rollback me)) := by
  refine h.of_bears fun {d s' r a} hs' hr ha => ?_
  rw [List.getElem?_map] at hs'
  obtain ⟨s, hs, rfl⟩ := Option.map_eq_some_iff.mp hs'
  exact ⟨s, r, hs, Slot.bears_of_rollback hr, ha⟩

/-- A changed row keeps its key; a deleted one needs none. -/
theorem Table.Keyed.take (h : t.Keyed key) {d : Nat} {s : Slot Row} {old : Row} {v : Option Row}
    (hs : t[d]? = some s) (hview : s.view me = some old)
    (hkey : ∀ {new : Row}, v = some new → key new = key old) :
    Table.Keyed key (t.set d (s.hold me v)) := by
  refine h.of_bears fun {e s' r a} hs' hr ha => ?_
  rcases get_set_cases hs' with ⟨rfl, rfl⟩ | ⟨-, hold⟩
  · rcases hr with hx | ⟨k, hl⟩
    · exact ⟨s, r, hs, .inl hx, ha⟩
    · obtain ⟨-, rfl⟩ : me = k ∧ v = some r := by simpa [Slot.hold] using hl
      exact ⟨s, old, hs, Slot.bears_of_view hview, hkey rfl ▸ ha⟩
  · exact ⟨s', r, hold, hr, ha⟩

/-- An added row brings a key no other has. -/
theorem Table.Keyed.insert (h : t.Keyed key) {r : Row}
    (hnew : ∀ {a : K}, key r = some a → ∀ {d : Nat} {s : Slot Row} {r' : Row}, t[d]? = some s →
      s.Bears r' → key r' ≠ some a) : Table.Keyed key (t ++ [Slot.fresh me r]) := by
  have hfresh : ∀ {r' : Row}, (Slot.fresh me r).Bears r' → r' = r := by
    intro r' hr
    rcases hr with ⟨x, hx, -⟩ | ⟨k, hl⟩
    · cases hx
    · obtain ⟨-, rfl⟩ : me = k ∧ r = r' := by simpa [Slot.fresh] using hl
      rfl
  intro d e s s' r₁ r₂ a hs hs' hr hr' ha ha'
  rcases get_snoc_cases hs with ⟨rfl, rfl⟩ | hold <;>
    rcases get_snoc_cases hs' with ⟨rfl, rfl⟩ | hold'
  · rfl
  · rw [hfresh hr] at ha
    exact absurd ha' (hnew ha hold' hr')
  · rw [hfresh hr'] at ha'
    exact absurd ha (hnew ha' hold hr)
  · exact h _ _ _ _ _ _ _ hold hold' hr hr' ha ha'

end Keyed

/-! ### What a call holds and has committed -/

/-- Every lock and every version is some call's below `n`. -/
structure Table.Known (t : Table Row) (n : Nat) : Prop where
  locks : ∀ {k d : Nat} {v : Option Row}, t.Locked k d v → k < n
  versions : ∀ {d k : Nat} {s : Slot Row} {v : Option Row}, t[d]? = some s →
    ⟨some k, v⟩ ∈ s.versions → k < n

theorem Table.Known.effect {t t' : Table Row} {n me : Nat} (h : t.Known n) (he : Effect me t t')
    (hme : me < n) : t'.Known n := by
  refine ⟨fun {k d v} hl => ?_, fun {d k s' v} hs' hv => ?_⟩
  · by_cases hk : k = me
    · omega
    · exact h.locks ((he.locked_iff hk).mp hl)
  · by_cases hk : k = me
    · omega
    · rcases he.new hs' with ⟨s, hs, hturn⟩ | ⟨-, r, rfl, -⟩
      · exact h.versions hs (hturn.version_before hv rfl hk)
      · cases hv

/-- What call `k` holds (`none` where a statement has just failed) and what it has committed. -/
structure Tally (t : Table Row) (k : Nat) (held : Option (List (Nat × Option Row)))
    (wrote : List (Nat × Option Row)) : Prop where
  holds : ∀ {H : List (Nat × Option Row)}, held = some H → t.Holds k H
  written : t.WroteOnly k wrote

namespace Tally

variable {t t' : Table Row} {k me d n : Nat} {held : Option (List (Nat × Option Row))}
  {H wrote : List (Nat × Option Row)} {s : Slot Row} {r : Row} {v : Option Row}

/-- A step that adds no version of `k`'s and takes none away leaves what it has committed. -/
theorem written_of (h : t.WroteOnly k wrote)
    (hold : ∀ {d : Nat} {s : Slot Row}, t[d]? = some s →
      ∃ s', t'[d]? = some s' ∧ ∀ v, ⟨some k, v⟩ ∈ s.versions → ⟨some k, v⟩ ∈ s'.versions)
    (hnew : ∀ {d : Nat} {s' : Slot Row} {v : Option Row}, t'[d]? = some s' →
      ⟨some k, v⟩ ∈ s'.versions → ∃ s, t[d]? = some s ∧ ⟨some k, v⟩ ∈ s.versions) :
    t'.WroteOnly k wrote := by
  intro d v
  rw [← h d v]
  constructor
  · intro hpost
    obtain ⟨s', hs', hv⟩ := hpost
    exact hnew hs' hv
  · intro hpost
    obtain ⟨s, hs, hv⟩ := hpost
    obtain ⟨s', hs', hkeep⟩ := hold hs
    exact ⟨s', hs', hkeep v hv⟩

/-- Other callers' steps change nothing. -/
theorem other (h : Tally t k held wrote) (he : Effect me t t') (hk : k ≠ me) :
    Tally t' k held wrote := by
  refine ⟨fun hH => he.holds_other hk (h.holds hH), written_of h.written (fun hs => ?_)
    fun {d s' v} hs' hv => ?_⟩
  · obtain ⟨s', hs', hturn⟩ := he.old hs
    obtain ⟨pre, hpre⟩ := hturn.suffix
    exact ⟨s', hs', fun v hv => by rw [hpre]; exact List.mem_append_right _ hv⟩
  · rcases he.new hs' with ⟨s, hs, hturn⟩ | ⟨-, r, rfl, -⟩
    · exact ⟨s, hs, hturn.version_before hv rfl hk⟩
    · cases hv

/-- A statement has failed. -/
theorem fail (h : Tally t k held wrote) : Tally t k none wrote :=
  ⟨fun hH => (nomatch hH), h.written⟩

theorem take (h : Tally t k (some H) wrote) (hs : t[d]? = some s) (hd : ∀ w, (d, w) ∉ H) :
    Tally (t.set d (s.hold k v)) k (some (H ++ [(d, v)])) wrote := by
  have hlt := (List.getElem?_eq_some_iff.mp hs).1
  refine ⟨fun hH => ?_, written_of h.written (fun {e x} hx => ?_) fun {e x w} hx hv => ?_⟩
  · cases hH
    exact (h.holds rfl).hold hs v hd
  · by_cases he : d = e
    · subst he
      obtain rfl := Option.some.inj (hs.symm.trans hx)
      exact ⟨_, List.getElem?_set_self hlt, fun _ hv => hv⟩
    · exact ⟨x, by rw [List.getElem?_set_ne he, hx], fun _ hv => hv⟩
  · rcases get_set_cases hx with ⟨rfl, rfl⟩ | ⟨-, hold⟩
    · exact ⟨s, hs, hv⟩
    · exact ⟨x, hold, hv⟩

theorem insert (h : Tally t k (some H) wrote) (r : Row) :
    Tally (t ++ [Slot.fresh k r]) k (some (H ++ [(t.length, some r)])) wrote := by
  refine ⟨fun hH => ?_, written_of h.written (fun {e x} hx => ?_) fun {e x w} hx hv => ?_⟩
  · cases hH
    exact (h.holds rfl).insert r
  · exact ⟨x, by rw [List.getElem?_append_left (List.getElem?_eq_some_iff.mp hx).1, hx],
      fun _ hv => hv⟩
  · rcases get_snoc_cases hx with ⟨-, rfl⟩ | hold
    · cases hv
    · exact ⟨x, hold, hv⟩

/-- What the call held it has now committed. -/
theorem commit (h : Tally t k (some H) wrote) :
    Tally (t.map (Slot.commit k)) k (some []) (wrote ++ H) := by
  refine ⟨fun hH => by cases hH; exact .commit t, fun d v => ?_⟩
  rw [List.mem_append, ← h.written d v, ← h.holds rfl d v]
  constructor
  · intro hpost
    obtain ⟨s', hs', hv⟩ := hpost
    rw [List.getElem?_map] at hs'
    obtain ⟨s, hs, rfl⟩ := Option.map_eq_some_iff.mp hs'
    by_cases hown : ∃ w, s.lock = some (k, w)
    · obtain ⟨w, hw⟩ := hown
      rw [Slot.commit_of_own hw] at hv
      rcases List.mem_cons.mp hv with heq | hv
      · cases heq
        exact .inr ⟨s, hs, hw⟩
      · exact .inl ⟨s, hs, hv⟩
    · rw [Slot.commit_of_not_own fun r hr => hown ⟨r, hr⟩] at hv
      exact .inl ⟨s, hs, hv⟩
  · intro hor
    rcases hor with ⟨s, hs, hv⟩ | ⟨s, hs, hl⟩
    · refine ⟨s.commit k, by rw [List.getElem?_map, hs]; rfl, ?_⟩
      obtain ⟨pre, hpre⟩ := Slot.Turn.commit_suffix k s
      rw [hpre]
      exact List.mem_append_right _ hv
    · refine ⟨s.commit k, by rw [List.getElem?_map, hs]; rfl, ?_⟩
      rw [Slot.commit_of_own hl]
      exact List.mem_cons_self

theorem rollback (h : Tally t k held wrote) :
    Tally (t.map (Slot.rollback k)) k (some []) wrote := by
  refine ⟨fun hH => by cases hH; exact .rollback t, written_of h.written (fun {e x} hx => ?_)
    fun {e x w} hx hv => ?_⟩
  · exact ⟨x.rollback k, by rw [List.getElem?_map, hx]; rfl, fun v hv => by
      rwa [Slot.versions_rollback]⟩
  · rw [List.getElem?_map] at hx
    obtain ⟨y, hy, rfl⟩ := Option.map_eq_some_iff.mp hx
    rw [Slot.versions_rollback] at hv
    exact ⟨y, hy, hv⟩

/-- A call not yet made holds nothing and has committed nothing. -/
theorem start (h : t.Known n) : Tally t n (some []) [] := by
  refine ⟨fun hH d v => ?_, fun d v => ?_⟩
  · cases hH
    simp only [List.not_mem_nil, iff_false]
    intro hl
    have hlt := h.locks hl
    omega
  · simp only [List.not_mem_nil, iff_false]
    intro hpost
    obtain ⟨s, hs, hv⟩ := hpost
    have hlt := h.versions hs hv
    omega

/-- A row the call can take and does not hold is not locked. -/
theorem unlocked (h : Tally t k (some H) wrote) (hs : t[d]? = some s) (hfree : s.free k = true)
    (hd : ∀ w, (d, w) ∉ H) : s.lock = none := (h.holds rfl).unlocked hs hfree hd

/-- A call sees what is committed in a row it does not hold. -/
theorem view (h : Tally t k (some H) wrote) (hs : t[d]? = some s) (hd : ∀ w, (d, w) ∉ H) :
    s.view k = s.current := (h.holds rfl).view hs hd

end Tally

/-! ### The invariant -/

variable {Op : Type} {Reply : Op → Type} {Call α : Type} {P : Protocol Op Reply Call α}

/-- The rows and the calls fit together; `F` is to say what each call holds, by a `Tally`. -/
structure Journal (R : List P.Ghost → Nat → Slot Row → Prop) (F : Table Row → Nat → P.Ghost → Prop)
    (n : Nat) (t : Table Row) (gs : List P.Ghost) : Prop where
  slots : ∀ {d : Nat} {s : Slot Row}, t[d]? = some s → R gs d s
  /-- The first `n` rows were there from the start. -/
  length : n ≤ t.length
  known : t.Known gs.length
  facts : ∀ {k : Nat} {g : P.Ghost}, gs[k]? = some g → F t k g

namespace Journal

variable {R : List P.Ghost → Nat → Slot Row → Prop} {F : Table Row → Nat → P.Ghost → Prop} {n : Nat}
  {t t' : Table Row} {gs : List P.Ghost} {i : Nat} {g g' : P.Ghost}

/-- Putting a step together: the effect, the rows and the caller's own facts. -/
theorem next (h : Journal R F n t gs) (hstable : Stable R F) (hg : gs[i]? = some g)
    (he : Effect i t t') (hlen : t.length ≤ t'.length)
    (hslots : ∀ {d : Nat} {s' : Slot Row}, t'[d]? = some s' → R (gs.set i g') d s')
    (hfacts : F t' i g') : Journal R F n t' (gs.set i g') := by
  have hi := (List.getElem?_eq_some_iff.mp hg).1
  refine ⟨hslots, Nat.le_trans h.length hlen, ?_, fun {k x} hk => ?_⟩
  · rw [List.length_set]
    exact h.known.effect he hi
  · rcases get_set_cases hk with ⟨rfl, rfl⟩ | ⟨hne, hk⟩
    · exact hfacts
    · exact hstable.facts (h.facts hk) he hne

theorem same (h : Journal R F n t gs) (hstable : Stable R F) (hg : gs[i]? = some g)
    (hcall : g'.call = g.call) (hfacts : F t i g') : Journal R F n t (gs.set i g') :=
  h.next hstable hg .none (Nat.le_refl _)
    (fun hs => hstable.calls (h.slots hs) (sameCalls_set hg hcall)) hfacts

theorem commit (h : Journal R F n t gs) (hstable : Stable R F) (hg : gs[i]? = some g)
    (hcall : g'.call = g.call) (hfacts : F (t.map (Slot.commit i)) i g') :
    Journal R F n (t.map (Slot.commit i)) (gs.set i g') := by
  refine h.next hstable hg .commit (by simp) (fun {d s'} hs' => ?_) hfacts
  rw [List.getElem?_map] at hs'
  obtain ⟨s, hs, rfl⟩ := Option.map_eq_some_iff.mp hs'
  exact hstable.commit (hstable.calls (h.slots hs) (sameCalls_set hg hcall))

theorem rollback (h : Journal R F n t gs) (hstable : Stable R F) (hg : gs[i]? = some g)
    (hcall : g'.call = g.call) (hfacts : F (t.map (Slot.rollback i)) i g') :
    Journal R F n (t.map (Slot.rollback i)) (gs.set i g') := by
  refine h.next hstable hg .rollback (by simp) (fun {d s'} hs' => ?_) hfacts
  rw [List.getElem?_map] at hs'
  obtain ⟨s, hs, rfl⟩ := Option.map_eq_some_iff.mp hs'
  exact hstable.rollback (hstable.calls (h.slots hs) (sameCalls_set hg hcall))

theorem take (h : Journal R F n t gs) (hstable : Stable R F) (hg : gs[i]? = some g)
    (hcall : g'.call = g.call) {d : Nat} {s : Slot Row} {a : Row} {v : Option Row}
    (hs : t[d]? = some s) (hfree : s.free i = true) (hview : s.view i = some a)
    (hrow : R gs d s → R gs d (s.hold i v)) (hfacts : F (t.set d (s.hold i v)) i g') :
    Journal R F n (t.set d (s.hold i v)) (gs.set i g') := by
  refine h.next hstable hg (.hold hs hfree hview) (by simp) (fun {d' s'} hs' => ?_) hfacts
  rcases get_set_cases hs' with ⟨rfl, rfl⟩ | ⟨-, hold⟩
  · exact hstable.calls (hrow (h.slots hs)) (sameCalls_set hg hcall)
  · exact hstable.calls (h.slots hold) (sameCalls_set hg hcall)

theorem insert (h : Journal R F n t gs) (hstable : Stable R F) (hg : gs[i]? = some g)
    (hcall : g'.call = g.call) {r : Row} (hrow : R gs t.length (Slot.fresh i r))
    (hfacts : F (t ++ [Slot.fresh i r]) i g') :
    Journal R F n (t ++ [Slot.fresh i r]) (gs.set i g') := by
  refine h.next hstable hg (.insert r) (by simp) (fun {d' s'} hs' => ?_) hfacts
  rcases get_snoc_cases hs' with ⟨rfl, rfl⟩ | hold
  · exact hstable.calls hrow (sameCalls_set hg hcall)
  · exact hstable.calls (h.slots hold) (sameCalls_set hg hcall)

/-- A new call, whose facts follow from its having done nothing yet. -/
theorem spawn (h : Journal R F n t gs) (hstable : Stable R F)
    (hfacts : Tally t gs.length (some []) [] → F t gs.length g') :
    Journal R F n t (gs ++ [g']) := by
  refine ⟨fun hs => hstable.calls (h.slots hs) (sameCalls_snoc gs g'), h.length, ?_,
    fun {k x} hk => ?_⟩
  · rw [List.length_append, List.length_singleton]
    refine ⟨fun hl => ?_, fun hs hv => ?_⟩
    · have hlt := h.known.locks hl
      omega
    · have hlt := h.known.versions hs hv
      omega
  · rcases get_snoc_cases hk with ⟨rfl, rfl⟩ | hk
    · exact hfacts (.start h.known)
    · exact h.facts hk

/-- Before any call, with nothing but the rows that were there from the start. -/
theorem start {rows : List Row}
    (hrows : ∀ {d : Nat} {r : Row}, rows[d]? = some r → R [] d (Slot.loaded r)) :
    Journal R F rows.length (rows.map Slot.loaded) [] := by
  have hslot : ∀ {d : Nat} {s : Slot Row}, (rows.map Slot.loaded)[d]? = some s →
      ∃ r, rows[d]? = some r ∧ s = Slot.loaded r := by
    intro d s hs
    rw [List.getElem?_map] at hs
    obtain ⟨r, hr, rfl⟩ := Option.map_eq_some_iff.mp hs
    exact ⟨r, hr, rfl⟩
  refine ⟨fun {d s} hs => ?_, by simp, ⟨fun {k d v} hl => ?_, fun {d k s v} hs hv => ?_⟩, by simp⟩
  · obtain ⟨r, hr, rfl⟩ := hslot hs
    exact hrows hr
  · obtain ⟨s, hs, hl⟩ := hl
    obtain ⟨r, -, rfl⟩ := hslot hs
    cases hl
  · obtain ⟨r, -, rfl⟩ := hslot hs
    cases List.mem_singleton.mp hv

end Journal

end Basis
