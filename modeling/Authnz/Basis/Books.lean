/-
An invariant of a table and the calls that work on it, kept in one place.

`Books` says three things at once: what each row may look like (`R`, which may name
the calls made so far), which rows every call holds and has committed (`Ledger`),
and what a call's phase says of the table (`F`).  What every invariant of this form
needs is that commits, rollbacks and other callers' work leave the first and the
last alone; that is `Stable`.  Then each kind of step keeps the books by one lemma,
and a proof about a service supplies what is special to it: the new row, and the
acting call's own facts.
-/
import Authnz.Basis.Effects

namespace Basis

variable {Op : Type} {Reply : Op → Type} {Call α Row : Type} {P : Protocol Op Reply Call α}

/-- Every call made is still there, and is the same call. -/
def SameCalls (gs gs' : List P.Ghost) : Prop :=
  ∀ {j : Nat} {g : P.Ghost}, gs[j]? = some g → ∃ g', gs'[j]? = some g' ∧ g'.call = g.call

theorem sameCalls_set {gs : List P.Ghost} {i : Nat} {g g' : P.Ghost} (hg : gs[i]? = some g)
    (hcall : g'.call = g.call) : SameCalls gs (gs.set i g') := by
  intro j x hx
  by_cases hij : i = j
  · subst hij
    obtain rfl := Option.some.inj (hg.symm.trans hx)
    exact ⟨g', List.getElem?_set_self (List.getElem?_eq_some_iff.mp hg).1, hcall⟩
  · exact ⟨x, by rw [List.getElem?_set_ne hij, hx], rfl⟩

theorem sameCalls_snoc (gs : List P.Ghost) (g : P.Ghost) : SameCalls gs (gs ++ [g]) := by
  intro j x hx
  exact ⟨x, by rw [List.getElem?_append_left (List.getElem?_eq_some_iff.mp hx).1, hx], rfl⟩

/-- What rows look like, and what phases say, does not depend on other callers' work. -/
structure Stable (R : List P.Ghost → Nat → Slot Row → Prop)
    (F : Table Row → Nat → P.Ghost → Prop) : Prop where
  commit : ∀ {gs : List P.Ghost} {d me : Nat} {s : Slot Row}, R gs d s → R gs d (s.commit me)
  rollback : ∀ {gs : List P.Ghost} {d me : Nat} {s : Slot Row}, R gs d s → R gs d (s.rollback me)
  calls : ∀ {gs gs' : List P.Ghost} {d : Nat} {s : Slot Row}, R gs d s → SameCalls gs gs' →
    R gs' d s
  facts : ∀ {t t' : Table Row} {k me : Nat} {g : P.Ghost}, F t k g → Effect me t t' → k ≠ me →
    F t' k g

/-- The rows, the locks and the calls fit together. -/
structure Books (R : List P.Ghost → Nat → Slot Row → Prop) (F : Table Row → Nat → P.Ghost → Prop)
    (held : P.Phase → Option (List (Nat × Option Row))) (wrote : P.Phase → List (Nat × Option Row))
    (n : Nat) (t : Table Row) (gs : List P.Ghost) : Prop where
  slots : ∀ {d : Nat} {s : Slot Row}, t[d]? = some s → R gs d s
  /-- The first `n` rows were there from the start. -/
  length : n ≤ t.length
  ledger : Ledger P held wrote t gs
  facts : ∀ {k : Nat} {g : P.Ghost}, gs[k]? = some g → F t k g

namespace Books

variable {R : List P.Ghost → Nat → Slot Row → Prop} {F : Table Row → Nat → P.Ghost → Prop}
  {held : P.Phase → Option (List (Nat × Option Row))} {wrote : P.Phase → List (Nat × Option Row)}
  {n : Nat} {t t' : Table Row} {gs : List P.Ghost} {i : Nat} {g g' : P.Ghost}

/-- Putting a step together: the effect, the rows, the ledger and the caller's own facts. -/
theorem next (h : Books R F held wrote n t gs) (hstable : Stable R F) (hg : gs[i]? = some g)
    (he : Effect i t t') (hlen : t.length ≤ t'.length)
    (hslots : ∀ {d : Nat} {s' : Slot Row}, t'[d]? = some s' → R (gs.set i g') d s')
    (hledger : Ledger P held wrote t' (gs.set i g')) (hfacts : F t' i g') :
    Books R F held wrote n t' (gs.set i g') := by
  refine ⟨hslots, Nat.le_trans h.length hlen, hledger, fun {k x} hk => ?_⟩
  rcases get_set_cases hk with ⟨rfl, rfl⟩ | ⟨hne, hk⟩
  · exact hfacts
  · exact hstable.facts (h.facts hk) he hne

/-- Nothing happened to the table. -/
theorem same (h : Books R F held wrote n t gs) (hstable : Stable R F) (hg : gs[i]? = some g)
    (hcall : g'.call = g.call) (hheld : held g'.phase = held g.phase ∨ held g'.phase = none)
    (hwrote : ∀ x ∈ wrote g.phase, x ∈ wrote g'.phase) (hfacts : F t i g') :
    Books R F held wrote n t (gs.set i g') :=
  h.next hstable hg .none (Nat.le_refl _)
    (fun hs => hstable.calls (h.slots hs) (sameCalls_set hg hcall))
    (h.ledger.same hg hheld hwrote) hfacts

/-- The call committed what it held. -/
theorem commit (h : Books R F held wrote n t gs) (hstable : Stable R F) (hg : gs[i]? = some g)
    (hcall : g'.call = g.call) {H : List (Nat × Option Row)} (hH : held g.phase = some H)
    (hH' : held g'.phase = some []) (hwrote : ∀ x ∈ wrote g.phase, x ∈ wrote g'.phase)
    (hnew : ∀ x ∈ H, x ∈ wrote g'.phase) (hfacts : F (t.map (Slot.commit i)) i g') :
    Books R F held wrote n (t.map (Slot.commit i)) (gs.set i g') := by
  refine h.next hstable hg .commit (by simp) (fun {d s'} hs' => ?_)
    (h.ledger.commit hg hH hH' hwrote hnew) hfacts
  rw [List.getElem?_map] at hs'
  obtain ⟨s, hs, rfl⟩ := Option.map_eq_some_iff.mp hs'
  exact hstable.commit (hstable.calls (h.slots hs) (sameCalls_set hg hcall))

/-- The call gave back what it held. -/
theorem rollback (h : Books R F held wrote n t gs) (hstable : Stable R F) (hg : gs[i]? = some g)
    (hcall : g'.call = g.call) (hH' : held g'.phase = some [])
    (hwrote : ∀ x ∈ wrote g.phase, x ∈ wrote g'.phase) (hfacts : F (t.map (Slot.rollback i)) i g') :
    Books R F held wrote n (t.map (Slot.rollback i)) (gs.set i g') := by
  refine h.next hstable hg .rollback (by simp) (fun {d s'} hs' => ?_)
    (h.ledger.rollback hg (fun H hH => Option.some.inj (hH.symm.trans hH')) hwrote) hfacts
  rw [List.getElem?_map] at hs'
  obtain ⟨s, hs, rfl⟩ := Option.map_eq_some_iff.mp hs'
  exact hstable.rollback (hstable.calls (h.slots hs) (sameCalls_set hg hcall))

/-- The call took a row. -/
theorem take (h : Books R F held wrote n t gs) (hstable : Stable R F) (hg : gs[i]? = some g)
    (hcall : g'.call = g.call) {d : Nat} {s : Slot Row} {a : Row} {v : Option Row}
    (hs : t[d]? = some s) (hfree : s.free i = true) (hview : s.view i = some a)
    {H : List (Nat × Option Row)} (hH : held g.phase = some H)
    (hH' : held g'.phase = some (H ++ [(d, v)])) (hd : ∀ w, (d, w) ∉ H)
    (hwrote : ∀ x ∈ wrote g.phase, x ∈ wrote g'.phase)
    (hrow : R gs d s → R gs d (s.hold i v)) (hfacts : F (t.set d (s.hold i v)) i g') :
    Books R F held wrote n (t.set d (s.hold i v)) (gs.set i g') := by
  refine h.next hstable hg (.hold hs hfree hview) (by simp) (fun {d' s'} hs' => ?_)
    (h.ledger.take hg hs hfree hview hH hH' hd hwrote) hfacts
  rcases get_set_cases hs' with ⟨rfl, rfl⟩ | ⟨-, hold⟩
  · exact hstable.calls (hrow (h.slots hs)) (sameCalls_set hg hcall)
  · exact hstable.calls (h.slots hold) (sameCalls_set hg hcall)

/-- The call added a row. -/
theorem insert (h : Books R F held wrote n t gs) (hstable : Stable R F) (hg : gs[i]? = some g)
    (hcall : g'.call = g.call) {r : Row} {H : List (Nat × Option Row)}
    (hH : held g.phase = some H) (hH' : held g'.phase = some (H ++ [(t.length, some r)]))
    (hwrote : ∀ x ∈ wrote g.phase, x ∈ wrote g'.phase) (hrow : R gs t.length (Slot.fresh i r))
    (hfacts : F (t ++ [Slot.fresh i r]) i g') :
    Books R F held wrote n (t ++ [Slot.fresh i r]) (gs.set i g') := by
  refine h.next hstable hg (.insert r) (by simp) (fun {d' s'} hs' => ?_)
    (h.ledger.insert hg hH hH' hwrote) hfacts
  rcases get_snoc_cases hs' with ⟨rfl, rfl⟩ | hold
  · exact hstable.calls hrow (sameCalls_set hg hcall)
  · exact hstable.calls (h.slots hold) (sameCalls_set hg hcall)

/-- A new call holds nothing and has written nothing. -/
theorem spawn (h : Books R F held wrote n t gs) (hstable : Stable R F)
    (hheld : held g'.phase = some []) (hfacts : F t gs.length g') :
    Books R F held wrote n t (gs ++ [g']) := by
  refine ⟨fun hs => hstable.calls (h.slots hs) (sameCalls_snoc gs g'), h.length,
    h.ledger.spawn fun H hH => Option.some.inj (hH.symm.trans hheld), fun {k x} hk => ?_⟩
  rcases get_snoc_cases hk with ⟨rfl, rfl⟩ | hk
  · exact hfacts
  · exact h.facts hk

/-- Before any call, with nothing but the rows that were there from the start. -/
theorem start {rows : List Row}
    (hrows : ∀ {d : Nat} {r : Row}, rows[d]? = some r → R [] d (Slot.loaded r)) :
    Books R F held wrote rows.length (rows.map Slot.loaded) [] := by
  refine ⟨fun {d s} hs => ?_, by simp, .start rows, by simp⟩
  rw [List.getElem?_map] at hs
  obtain ⟨r, hr, rfl⟩ := Option.map_eq_some_iff.mp hs
  exact hrows hr

/-- A row one can take and does not hold is not locked. -/
theorem unlocked (h : Books R F held wrote n t gs) (hg : gs[i]? = some g) {d : Nat} {s : Slot Row}
    (hs : t[d]? = some s) (hfree : s.free i = true) {H : List (Nat × Option Row)}
    (hH : held g.phase = some H) (hd : ∀ v, (d, v) ∉ H) : s.lock = none :=
  (h.ledger.holds hg hH).unlocked hs hfree hd

/-- A call sees what is committed in a row it does not hold. -/
theorem view (h : Books R F held wrote n t gs) (hg : gs[i]? = some g) {d : Nat} {s : Slot Row}
    (hs : t[d]? = some s) {H : List (Nat × Option Row)} (hH : held g.phase = some H)
    (hd : ∀ v, (d, v) ∉ H) : s.view i = s.current := (h.ledger.holds hg hH).view hs hd

end Books

end Basis
