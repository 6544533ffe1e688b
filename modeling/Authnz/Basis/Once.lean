/-
A store whose entries go to at most one taker.

Entries go in under keys of their own and come out by being removed.  As long as no
key is used for two entries, nothing removed comes back, so of all the takers of a
key at most one finds an entry there.  `OneTaker` is that invariant; `put` and `take`
are the two things that may happen to it, an expiry being a removal nobody gains by.
-/
import Mathlib.Logic.Function.Basic

namespace Basis

section Store

variable {K : Type} [DecidableEq K] {E : K → Type} {store : (k : K) → Option (E k)} {k l : K}

/-- What is there after a removal was there before. -/
theorem stored_of_removal {e : E l} (h : Function.update store k none l = some e) :
    store l = some e := by
  by_cases hl : l = k
  · subst hl
    rw [Function.update_self] at h
    cases h
  · rwa [Function.update_of_ne hl] at h

/-- What is there after an entry has gone in was there before, or is that entry. -/
theorem stored_of_entry {E : Type} {store : K → Option E} {e x : E}
    (h : Function.update store k (some x) l = some e) : store l = some e ∨ l = k ∧ e = x := by
  by_cases hl : l = k
  · subst hl
    rw [Function.update_self] at h
    exact .inr ⟨rfl, (Option.some.inj h).symm⟩
  · rw [Function.update_of_ne hl] at h
    exact .inl h

end Store

variable {K E : Type}

/-- The entries lie under their own keys and were put there; a key somebody took an entry from
is empty, and nobody else took one from it. -/
structure OneTaker (key : E → K) (store : K → Option E) (placed : E → Prop)
    (takes : Nat → K → E → Prop) : Prop where
  own : ∀ {k : K} {e : E}, store k = some e → key e = k ∧ placed e
  taken : ∀ {i : Nat} {k : K} {e : E}, takes i k e → key e = k ∧ placed e ∧ store k = none
  once : ∀ {i j : Nat} {k : K} {e e' : E}, takes i k e → takes j k e' → i = j

namespace OneTaker

variable {key : E → K} {store : K → Option E} {placed placed' : E → Prop}
  {takes takes' : Nat → K → E → Prop}

/-- Nothing happens to the store. -/
theorem stay (h : OneTaker key store placed takes) (hplaced : ∀ {e}, placed e → placed' e)
    (htakes : ∀ {i k e}, takes' i k e → takes i k e) : OneTaker key store placed' takes' where
  own he := ⟨(h.own he).1, hplaced (h.own he).2⟩
  taken ht := by
    obtain ⟨hkey, hp, hgone⟩ := h.taken (htakes ht)
    exact ⟨hkey, hplaced hp, hgone⟩
  once hi hj := h.once (htakes hi) (htakes hj)

variable [DecidableEq K]

/-- An entry goes in under a key no entry has had. -/
theorem put (h : OneTaker key store placed takes) (hplaced : ∀ {e}, placed e → placed' e)
    (htakes : ∀ {i k e}, takes' i k e → takes i k e) {e : E} (he : placed' e)
    (hnew : ∀ {e'}, placed e' → key e' ≠ key e) :
    OneTaker key (Function.update store (key e) (some e)) placed' takes' where
  own {k x} hx := by
    rcases stored_of_entry hx with hold | ⟨rfl, rfl⟩
    · exact ⟨(h.own hold).1, hplaced (h.own hold).2⟩
    · exact ⟨rfl, he⟩
  taken {i k x} ht := by
    obtain ⟨hkey, hp, hgone⟩ := h.taken (htakes ht)
    have hne : k ≠ key e := fun hk => hnew hp (hkey.trans hk)
    exact ⟨hkey, hplaced hp, by rw [Function.update_of_ne hne, hgone]⟩
  once hi hj := h.once (htakes hi) (htakes hj)

/-- Taker `i` removes what lies under `k`. -/
theorem take (h : OneTaker key store placed takes) (hplaced : ∀ {e}, placed e → placed' e)
    {i : Nat} {k : K}
    (htakes : ∀ {j l e}, takes' j l e → takes j l e ∨ j = i ∧ l = k ∧ store k = some e) :
    OneTaker key (Function.update store k none) placed' takes' where
  own hx :=
    have hold := stored_of_removal hx
    ⟨(h.own hold).1, hplaced (h.own hold).2⟩
  taken {j l x} ht := by
    rcases htakes ht with hold | ⟨-, rfl, hx⟩
    · obtain ⟨hkey, hp, hgone⟩ := h.taken hold
      refine ⟨hkey, hplaced hp, ?_⟩
      rw [Function.update_apply, hgone, ite_self]
    · exact ⟨(h.own hx).1, hplaced (h.own hx).2, Function.update_self ..⟩
  once {j j' l x x'} hj hj' := by
    -- whoever took from the key before left nothing there for `i` to find
    rcases htakes hj with hold | ⟨rfl, rfl, hx⟩
    · rcases htakes hj' with hold' | ⟨-, rfl, hx'⟩
      · exact h.once hold hold'
      · exact absurd ((h.taken hold).2.2.symm.trans hx') (by simp)
    · rcases htakes hj' with hold' | ⟨rfl, -, -⟩
      · exact absurd ((h.taken hold').2.2.symm.trans hx) (by simp)
      · rfl

/-- An entry expires. -/
theorem expire (h : OneTaker key store placed takes) (k : K) :
    OneTaker key (Function.update store k none) placed takes :=
  h.take (i := 0) id .inl

end OneTaker

end Basis
