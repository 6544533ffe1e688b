/-
Keys that are exchanged for their successors.

A store keeps rows under keys.  A key is issued, or it takes the place of another
key which it is exchanged for; rows may disappear and may be revoked, and are never
restored.  A key stems from the step that issued the first key of its line.

If no key is brought up twice, every key has one root, a line has one row at most,
no key is exchanged twice, and a line whose row is revoked has come to its end:
`Lineages` says so of a store and the steps that led to it, and every step keeps it.
-/
import Mathlib.Logic.Function.Basic
import Authnz.Basis.Interleave

namespace Basis

variable {K A : Type}

/-- A row: its key, what its successors inherit, and whether it was revoked. -/
structure Voucher (K A : Type) where
  key : K
  load : A
  revoked : Bool

/-- The rows, each at its place. -/
abbrev Vouchers (K A : Type) : Type := Nat → Option (Voucher K A)

/-- What a step does, as far as lines are concerned. -/
inductive Exchange (K A : Type) where
  | issue (key : K) (load : A)
  | rotate (old new : K)
  | other

/-- The key a step brings up. -/
def Exchange.brings : Exchange K A → Option K
  | .issue k _ => some k
  | .rotate _ k => some k
  | .other => none

/-- Rows disappear or are revoked, and nothing else. -/
def Vouchers.Ebbs (s s' : Vouchers K A) : Prop :=
  ∀ {d : Nat} {v' : Voucher K A}, s' d = some v' → ∃ v, s d = some v ∧ v'.key = v.key ∧
    v'.load = v.load ∧ (v.revoked = true → v'.revoked = true)

theorem Vouchers.Ebbs.refl (s : Vouchers K A) : s.Ebbs s := fun {_ v'} h => ⟨v', h, rfl, rfl, id⟩

/-- What each kind of step makes of the store. -/
inductive Vouchers.Step (s : Vouchers K A) : Exchange K A → Vouchers K A → Prop
  | issue {n : Nat} {k : K} {a : A} :
      Step s (.issue k a) (Function.update s n (some ⟨k, a, false⟩))
  | rotate {s₁ : Vouchers K A} {n d : Nat} {old new : K} {a : A}
      (hold : s d = some ⟨old, a, false⟩) (hebb : s.Ebbs s₁)
      (hgone : ∀ {e : Nat} {v : Voucher K A}, s₁ e = some v → v.key ≠ old) :
      Step s (.rotate old new) (Function.update s₁ n (some ⟨new, a, false⟩))
  | other {s' : Vouchers K A} (hebb : s.Ebbs s') : Step s .other s'

/-- Steps one after the other. -/
inductive Vouchers.Run : Vouchers K A → List (Exchange K A) → Vouchers K A → Prop
  | nil (s : Vouchers K A) : Run s [] s
  | cons {s s' s'' : Vouchers K A} {a : Exchange K A} {acts : List (Exchange K A)}
      (h : s.Step a s') (hrest : Run s' acts s'') : Run s (a :: acts) s''

/-! ### Lines -/

/-- The key `k` stems from step `i`: issued there, or exchanged for one that does. -/
inductive Stems (acts : List (Exchange K A)) (i : Nat) : K → Prop
  | issued {k : K} {a : A} (h : acts[i]? = some (.issue k a)) : Stems acts i k
  | rotated {j : Nat} {old new : K} (hold : Stems acts i old)
      (h : acts[j]? = some (.rotate old new)) : Stems acts i new

/-- Step `j` brings up the key. -/
def BringsAt (acts : List (Exchange K A)) (j : Nat) (k : K) : Prop :=
  ∃ a, acts[j]? = some a ∧ a.brings = some k

/-- No key is brought up twice. -/
def Fresh (acts : List (Exchange K A)) : Prop :=
  ∀ (i j : Nat) (k : K), BringsAt acts i k → BringsAt acts j k → i = j

section Lines

variable {acts : List (Exchange K A)} {a : Exchange K A} {i j : Nat} {k : K}

theorem get_snoc_old {x : Exchange K A} (h : acts[i]? = some x) : (acts ++ [a])[i]? = some x := by
  rw [List.getElem?_append_left (List.getElem?_eq_some_iff.mp h).1, h]

theorem BringsAt.lt (h : BringsAt acts j k) : j < acts.length := by
  obtain ⟨x, hx, -⟩ := h
  exact (List.getElem?_eq_some_iff.mp hx).1

theorem bringsAt_last (h : a.brings = some k) : BringsAt (acts ++ [a]) acts.length k :=
  ⟨a, List.getElem?_concat_length, h⟩

theorem BringsAt.append (h : BringsAt acts j k) (more : List (Exchange K A)) :
    BringsAt (acts ++ more) j k := by
  obtain ⟨x, hx, hk⟩ := h
  exact ⟨x, by rw [List.getElem?_append_left (List.getElem?_eq_some_iff.mp hx).1, hx], hk⟩

theorem Fresh.of_append {more : List (Exchange K A)} (h : Fresh (acts ++ more)) : Fresh acts :=
  fun _ _ _ hi hj => h _ _ _ (hi.append more) (hj.append more)

/-- A key known before is not the one the last step brings up. -/
theorem Fresh.last_ne (h : Fresh (acts ++ [a])) (hk : BringsAt acts j k) : a.brings ≠ some k := by
  intro ha
  have hlt := hk.lt
  have heq := h _ _ _ (hk.append _) (bringsAt_last ha)
  omega

theorem Stems.snoc (h : Stems acts i k) (a : Exchange K A) : Stems (acts ++ [a]) i k := by
  induction h with
  | issued h => exact .issued (get_snoc_old h)
  | rotated _ h ih => exact .rotated ih (get_snoc_old h)

theorem Stems.known (h : Stems acts i k) : ∃ j, BringsAt acts j k := by
  cases h with
  | issued h => exact ⟨_, _, h, rfl⟩
  | rotated _ h => exact ⟨_, _, h, rfl⟩

theorem Stems.lt (h : Stems acts i k) : i < acts.length := by
  induction h with
  | issued h => exact (List.getElem?_eq_some_iff.mp h).1
  | rotated _ _ ih => exact ih

/-- **A key has one root.** -/
theorem Stems.unique (hfresh : Fresh acts) (hi : Stems acts i k) (hj : Stems acts j k) :
    i = j := by
  induction hi with
  | issued h =>
      cases hj with
      | issued h' => exact hfresh _ _ _ ⟨_, h, rfl⟩ ⟨_, h', rfl⟩
      | rotated _ h' =>
          obtain rfl := hfresh _ _ _ ⟨_, h, rfl⟩ ⟨_, h', rfl⟩
          cases h.symm.trans h'
  | rotated _ h ih =>
      cases hj with
      | issued h' =>
          obtain rfl := hfresh _ _ _ ⟨_, h, rfl⟩ ⟨_, h', rfl⟩
          cases h.symm.trans h'
      | rotated hold' h' =>
          obtain rfl := hfresh _ _ _ ⟨_, h, rfl⟩ ⟨_, h', rfl⟩
          cases h.symm.trans h'
          exact ih hold'

end Lines

/-! ### The invariant -/

/-- The rows and the steps that led to them fit together. -/
structure Lineages (acts : List (Exchange K A)) (s : Vouchers K A) : Prop where
  rooted : ∀ {d : Nat} {v : Voucher K A}, s d = some v →
    ∃ i k, acts[i]? = some (.issue k v.load) ∧ Stems acts i v.key
  single : ∀ {d e i : Nat} {v v' : Voucher K A}, s d = some v → s e = some v' →
    Stems acts i v.key → Stems acts i v'.key → d = e
  known : ∀ {j : Nat} {old new : K}, acts[j]? = some (.rotate old new) → ∃ i, BringsAt acts i old
  spent : ∀ {j d : Nat} {old new : K} {v : Voucher K A}, acts[j]? = some (.rotate old new) →
    s d = some v → v.key ≠ old
  once : ∀ {i j : Nat} {old new new' : K}, acts[i]? = some (.rotate old new) →
    acts[j]? = some (.rotate old new') → i = j

namespace Lineages

variable {acts : List (Exchange K A)} {a : Exchange K A} {s s' : Vouchers K A} {i d : Nat} {k : K}
  {v : Voucher K A}

theorem start (s : Vouchers K A) (h : ∀ d, s d = none) : Lineages [] s where
  rooted hd := by rw [h] at hd; cases hd
  single hd := by rw [h] at hd; cases hd
  known hj := by cases hj
  spent hj := by cases hj
  once hi := by cases hi

/-- Later steps add nothing to what a key known before stems from. -/
theorem stems_of_append (h : Lineages acts s) {more : List (Exchange K A)}
    (hfresh : Fresh (acts ++ more)) (hd : Stems (acts ++ more) i k)
    (hk : ∃ j, BringsAt acts j k) : Stems acts i k := by
  have hold : ∀ {j : Nat} {x : Exchange K A} {k : K}, (acts ++ more)[j]? = some x →
      x.brings = some k → (∃ j, BringsAt acts j k) → acts[j]? = some x := by
    intro j x k hj hx hpost
    obtain ⟨j', hj'⟩ := hpost
    obtain ⟨y, hy, hk⟩ := hj'
    have hlt := (List.getElem?_eq_some_iff.mp hy).1
    obtain rfl := hfresh _ _ _ ⟨x, hj, hx⟩ ⟨y, by rw [List.getElem?_append_left hlt, hy], hk⟩
    rwa [List.getElem?_append_left hlt] at hj
  induction hd with
  | issued hi => exact .issued (hold hi rfl hk)
  | rotated _ hj ih =>
      have hj' := hold hj rfl hk
      exact .rotated (ih (h.known hj')) hj'

/-- The key of a row is known. -/
theorem row_known (h : Lineages acts s) (hd : s d = some v) : ∃ j, BringsAt acts j v.key := by
  obtain ⟨i, -, -, hstem⟩ := h.rooted hd
  exact hstem.known

/-- What is left of the rows fits the longer history, whatever the step brought up. -/
theorem ebb (h : Lineages acts s) (hfresh : Fresh (acts ++ [a])) (hebb : s.Ebbs s')
    (hrotate : ∀ {old new : K}, a = .rotate old new → (∃ i, BringsAt acts i old) ∧
      (∀ {d : Nat} {v : Voucher K A}, s' d = some v → v.key ≠ old) ∧
      ∀ {j : Nat} {new' : K}, acts[j]? ≠ some (.rotate old new')) : Lineages (acts ++ [a]) s' where
  rooted {d v'} hd := by
    obtain ⟨v, hv, hkey, hload, -⟩ := hebb hd
    obtain ⟨i, k, hi, hstem⟩ := h.rooted hv
    rw [hkey, hload]
    exact ⟨i, k, get_snoc_old hi, hstem.snoc a⟩
  single {d e i v v'} hd he hv hv' := by
    obtain ⟨x, hx, hkey, -, -⟩ := hebb hd
    obtain ⟨x', hx', hkey', -, -⟩ := hebb he
    rw [hkey] at hv
    rw [hkey'] at hv'
    exact h.single hx hx' (h.stems_of_append hfresh hv (h.row_known hx))
      (h.stems_of_append hfresh hv' (h.row_known hx'))
  known {j old new} hj := by
    rcases get_snoc_cases hj with ⟨-, ha⟩ | hj
    · obtain ⟨⟨i, hi⟩, -, -⟩ := hrotate ha.symm
      exact ⟨i, hi.append _⟩
    · obtain ⟨i, hi⟩ := h.known hj
      exact ⟨i, hi.append _⟩
  spent {j d old new v} hj hd := by
    rcases get_snoc_cases hj with ⟨-, ha⟩ | hj
    · obtain ⟨-, hgone, -⟩ := hrotate ha.symm
      exact hgone hd
    · obtain ⟨x, hx, hkey, -, -⟩ := hebb hd
      rw [hkey]
      exact h.spent hj hx
  once {i j old new new'} hi hj := by
    rcases get_snoc_cases hi with ⟨rfl, ha⟩ | hi <;> rcases get_snoc_cases hj with ⟨rfl, ha'⟩ | hj
    · rfl
    · exact absurd hj (hrotate ha.symm).2.2
    · exact absurd hi (hrotate ha'.symm).2.2
    · exact h.once hi hj

/-- A row more, under the key the last step brought up, when no other row is of its line. -/
theorem add (h : Lineages (acts ++ [a]) s) (hfresh : Fresh (acts ++ [a])) {n : Nat}
    (hbrings : a.brings = some v.key) (hspent : ∀ {j : Nat} {old new : K},
      (acts ++ [a])[j]? = some (.rotate old new) → v.key ≠ old)
    (hroot : ∃ i k, (acts ++ [a])[i]? = some (.issue k v.load) ∧ Stems (acts ++ [a]) i v.key ∧
      ∀ {e : Nat} {x : Voucher K A}, s e = some x → ¬ Stems (acts ++ [a]) i x.key) :
    Lineages (acts ++ [a]) (Function.update s n (some v)) := by
  obtain ⟨i, k, hi, hstem, halone⟩ := hroot
  have hcases : ∀ {d : Nat} {x : Voucher K A}, Function.update s n (some v) d = some x →
      d = n ∧ x = v ∨ s d = some x := by
    intro d x hd
    by_cases hdn : d = n
    · subst hdn
      rw [Function.update_self] at hd
      exact .inl ⟨rfl, (Option.some.inj hd).symm⟩
    · rw [Function.update_of_ne hdn] at hd
      exact .inr hd
  refine ⟨?_, ?_, h.known, ?_, h.once⟩
  · intro d x hd
    rcases hcases hd with ⟨-, rfl⟩ | hd
    · exact ⟨i, k, hi, hstem⟩
    · exact h.rooted hd
  · intro d e j x x' hd he hx hx'
    rcases hcases hd with ⟨rfl, rfl⟩ | hold <;> rcases hcases he with ⟨rfl, rfl⟩ | hold'
    · rfl
    · obtain rfl := hx.unique hfresh hstem
      exact absurd hx' (halone hold')
    · obtain rfl := hx'.unique hfresh hstem
      exact absurd hx (halone hold)
    · exact h.single hold hold' hx hx'
  · intro j d old new x hj hd
    rcases hcases hd with ⟨-, rfl⟩ | hd
    · exact hspent hj
    · exact h.spent hj hd

/-- **Every step keeps the lineages.** -/
theorem step (h : Lineages acts s) (hstep : s.Step a s') (hfresh : Fresh (acts ++ [a])) :
    Lineages (acts ++ [a]) s' := by
  cases hstep with
  | other hebb => exact h.ebb hfresh hebb fun ha => by cases ha
  | @issue n k load =>
      have hsame := h.ebb hfresh (Vouchers.Ebbs.refl s) fun ha => by cases ha
      refine hsame.add hfresh rfl (fun {j old new} hj => ?_)
        ⟨acts.length, k, List.getElem?_concat_length, .issued List.getElem?_concat_length, ?_⟩
      · rcases get_snoc_cases hj with ⟨-, ha⟩ | hj
        · cases ha
        · obtain ⟨i, hi⟩ := h.known hj
          intro hk
          exact hfresh.last_ne hi (congrArg some hk)
      · intro e x he hstem
        have hlt := (h.stems_of_append hfresh hstem (h.row_known he)).lt
        omega
  | @rotate s₁ n d old new load hold hebb hgone =>
      obtain ⟨i, k, hi, hstem⟩ := h.rooted hold
      have hleft := h.ebb hfresh hebb fun {old' new'} ha => by
        cases ha
        exact ⟨hstem.known, hgone, fun hj => h.spent hj hold rfl⟩
      refine hleft.add hfresh rfl (fun {j old' new'} hj => ?_)
        ⟨i, k, get_snoc_old hi, .rotated (hstem.snoc _) List.getElem?_concat_length, ?_⟩
      · intro hk
        have hborn : ∃ i, BringsAt acts i old' := by
          rcases get_snoc_cases hj with ⟨-, ha⟩ | hj
          · cases ha
            exact hstem.known
          · exact h.known hj
        obtain ⟨i', hi'⟩ := hborn
        exact hfresh.last_ne hi' (congrArg some hk)
      · intro e x he hx
        obtain ⟨v, hv, hkey, -, -⟩ := hebb he
        rw [hkey] at hx
        obtain rfl := h.single hold hv hstem (h.stems_of_append hfresh hx (h.row_known hv))
        obtain rfl := Option.some.inj (hold.symm.trans hv)
        exact hgone he hkey

/-- **Every run keeps the lineages.** -/
theorem run (h : Lineages acts s) {more : List (Exchange K A)} (hrun : s.Run more s')
    (hfresh : Fresh (acts ++ more)) : Lineages (acts ++ more) s' := by
  induction hrun generalizing acts with
  | nil s => rwa [List.append_nil]
  | @cons s s₁ s' a more hstep _ ih =>
      rw [List.append_cons] at hfresh ⊢
      exact ih (h.step hstep hfresh.of_append) hfresh

/-! ### The end of a line -/

/-- Whatever row the line has is revoked. -/
def Ended (acts : List (Exchange K A)) (s : Vouchers K A) (i : Nat) : Prop :=
  ∀ {d : Nat} {v : Voucher K A}, s d = some v → Stems acts i v.key → v.revoked = true

/-- A line whose row is revoked has ended. -/
theorem ended_of_revoked (h : Lineages acts s) (hd : s d = some v) (hstem : Stems acts i v.key)
    (hrev : v.revoked = true) : Ended acts s i := by
  intro e x he hx
  obtain rfl := h.single hd he hstem hx
  obtain rfl := Option.some.inj (hd.symm.trans he)
  exact hrev

/-- No key of a line that has ended is exchanged. -/
theorem Ended.not_rotated (h : Ended acts s i) {old new : K} (hstep : s.Step (.rotate old new) s') :
    ¬ Stems acts i old := by
  intro hstem
  cases hstep with
  | rotate hold _ _ => cases h hold hstem

/-- **A line that has ended stays so.** -/
theorem ended_step (h : Lineages acts s) (hend : Ended acts s i) (hi : i < acts.length)
    (hstep : s.Step a s') (hfresh : Fresh (acts ++ [a])) : Ended (acts ++ [a]) s' i := by
  have hebbed : ∀ {s₁ : Vouchers K A} {d : Nat} {x : Voucher K A}, s.Ebbs s₁ → s₁ d = some x →
      Stems (acts ++ [a]) i x.key → x.revoked = true := by
    intro s₁ d x hebb hd hx
    obtain ⟨v, hv, hkey, -, hrev⟩ := hebb hd
    rw [hkey] at hx
    exact hrev (hend hv (h.stems_of_append hfresh hx (h.row_known hv)))
  have hnot := fun {old new : K} (ha : a = .rotate old new) => hend.not_rotated (ha ▸ hstep)
  intro d x hd hx
  cases hstep with
  | other hebb => exact hebbed hebb hd hx
  | @issue n k load =>
      by_cases hdn : d = n
      · subst hdn
        rw [Function.update_self] at hd
        obtain rfl := Option.some.inj hd
        have heq := hx.unique hfresh (.issued List.getElem?_concat_length)
        omega
      · rw [Function.update_of_ne hdn] at hd
        exact hebbed (Vouchers.Ebbs.refl s) hd hx
  | @rotate s₁ n e old new load hold hebb hgone =>
      by_cases hdn : d = n
      · subst hdn
        rw [Function.update_self] at hd
        obtain rfl := Option.some.inj hd
        obtain ⟨j, -, -, hstem⟩ := h.rooted hold
        have hnew : Stems (acts ++ [.rotate old new]) j new :=
          .rotated (hstem.snoc _) List.getElem?_concat_length
        obtain rfl := hx.unique hfresh hnew
        exact absurd hstem (hnot rfl)
      · rw [Function.update_of_ne hdn] at hd
        exact hebbed hebb hd hx

/-- **No key of a line that has ended is ever exchanged.** -/
theorem ended_run (h : Lineages acts s) (hend : Ended acts s i) (hi : i < acts.length)
    {more : List (Exchange K A)} (hrun : s.Run more s') (hfresh : Fresh (acts ++ more))
    {old new : K} (hmem : .rotate old new ∈ more) : ¬ Stems (acts ++ more) i old := by
  induction hrun generalizing acts with
  | nil s => cases hmem
  | @cons s s₁ s' a more hstep _ ih =>
      rcases List.mem_cons.mp hmem with rfl | hmem
      · intro hstem
        refine hend.not_rotated hstep (h.stems_of_append hfresh hstem ?_)
        cases hstep with
        | rotate hold _ _ => exact h.row_known hold
      · rw [List.append_cons] at hfresh ⊢
        have hlong : i < (acts ++ [a]).length := by
          rw [List.length_append]
          omega
        exact ih (h.step hstep hfresh.of_append)
          (h.ended_step hend hi hstep hfresh.of_append) hlong hfresh hmem

end Lineages

end Basis
