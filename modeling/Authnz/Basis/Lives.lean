/-
The life of a row, from where it was added to its deletion.

Read from the oldest version on, the history of a warranted slot is a `Life`: the row
came about somehow, and each later version is what one call made of the one before.
What the calls may add and make is said for the rows of one table, and everything
else about slots and locks has been seen to in `Basis/Warrants.lean`.
-/
import Mathlib.Data.List.Induction
import Authnz.Basis.Warrants

namespace Basis

variable {Row α : Type}

/-- The history of one row of a table, the latest version first: how it came about, and what each
later writer made of it. -/
inductive Life (inj : α → Row) (born : Option Nat → α → Prop) (next : Nat → α → Option α → Prop) :
    List (Version Row) → Prop
  | born {w : Option Nat} {a : α} (h : born w a) : Life inj born next [⟨w, some (inj a)⟩]
  | next {k : Nat} {w : Option Nat} {a : α} {v : Option α} {earlier : List (Version Row)}
      (h : next k a v) (hpast : Life inj born next (⟨w, some (inj a)⟩ :: earlier)) :
      Life inj born next (⟨some k, v.map inj⟩ :: ⟨w, some (inj a)⟩ :: earlier)

namespace Life

variable {inj : α → Row} {born : Option Nat → α → Prop} {next : Nat → α → Option α → Prop}
  {l : List (Version Row)} {x : Version Row} {a : α}

/-- A version is the latest, or the next one is what its writer has made of it; nothing follows
a deletion. -/
theorem fate (h : Life inj born next l) (hinj : Function.Injective inj) (hx : x ∈ l)
    (hr : x.row = some (inj a)) : l.head? = some x ∨ ∃ k v, [⟨some k, v.map inj⟩, x] <:+: l ∧
      next k a v ∧ (v = none → l.head? = some ⟨some k, none⟩) := by
  induction h with
  | born hborn => exact .inl (congrArg some (List.mem_singleton.mp hx).symm)
  | @next k w b v earlier hnext hpast ih =>
      rcases List.mem_cons.mp hx with rfl | hx
      · exact .inl rfl
      · rcases ih hx with hhead | ⟨k', v', hinfix, hnext', hlast⟩
        · obtain rfl := Option.some.inj hhead
          obtain rfl := hinj (Option.some.inj hr)
          exact .inr ⟨k, v, ⟨[], earlier, rfl⟩, hnext, by rintro rfl; rfl⟩
        · exact .inr ⟨k', v', List.infix_cons hinfix, hnext', fun hv => nomatch hlast hv⟩

end Life

namespace Left

variable {add : Row → Prop} {make : Row → Option Row → Prop} {v : Option Row} {inj : α → Row}

/-- What is left of a row of the table is of the table, and is what the changes one after the other
make of it. -/
theorem changed {next : α → Option α → Prop}
    (hmake : ∀ a v, make (inj a) v → ∃ v' : Option α, v = v'.map inj ∧ next a v')
    (htrans : ∀ a b v, next a (some b) → next b v → next a v) {a : α}
    (h : Left add make (some (some (inj a))) v) : ∃ v' : Option α, v = v'.map inj ∧ next a v' := by
  generalize hpast : some (some (inj a)) = past at h
  induction h with
  | add => cases hpast
  | make hm =>
      cases hpast
      exact hmake _ _ hm
  | @again past r v _ hm ih =>
      obtain ⟨v₁, hv₁, hn₁⟩ := ih hpast
      cases v₁ with
      | none => cases hv₁
      | some b =>
          cases hv₁
          obtain ⟨v₂, hv₂, hn₂⟩ := hmake _ _ hm
          exact ⟨v₂, hv₂, htrans _ _ _ hn₁ hn₂⟩

/-- What is left as a row of the table was one of the table before, or has been added. -/
theorem of_table {past : Option (Option Row)} {b : α}
    (hback : ∀ r b, make r (some (inj b)) → (∃ a, r = inj a) ∧ ∀ a, ¬ add (inj a))
    (h : Left add make past (some (inj b))) :
    (past = none ∧ add (inj b)) ∨ ∃ a, past = some (some (inj a)) := by
  generalize hv : some (inj b) = v at h
  induction h generalizing b with
  | add ha =>
      cases hv
      exact .inl ⟨rfl, ha⟩
  | make hm =>
      subst hv
      obtain ⟨⟨a, rfl⟩, -⟩ := hback _ _ hm
      exact .inr ⟨a, rfl⟩
  | again _ hm ih =>
      subst hv
      obtain ⟨⟨a, rfl⟩, hno⟩ := hback _ _ hm
      rcases ih rfl with ⟨-, ha⟩ | hpast
      · exact absurd ha (hno a)
      · exact .inr hpast

end Left

namespace Slot.Warranted

variable {add : Nat → Row → Prop} {make : Nat → Row → Option Row → Prop} {first : Row → Prop}
  {s : Slot Row} {inj : α → Row}

/-- One version of the table makes all earlier ones versions of the table. -/
theorem earlier_of_table (h : s.Warranted add make first)
    (hback : ∀ k r b, make k r (some (inj b)) → (∃ a, r = inj a) ∧ ∀ a, ¬ add k (inj a))
    {pre post : List (Version Row)} {x y : Version Row} (he : s.versions = pre ++ x :: y :: post)
    (hx : ∃ b, x.row = some (inj b)) : ∃ a, y.row = some (inj a) := by
  obtain ⟨b, hb⟩ := hx
  rcases h.versions he with ⟨-, -, -, hnil⟩ | ⟨k, -, hleft⟩
  · cases hnil
  · rw [hb] at hleft
    rcases hleft.of_table (hback k) with ⟨hpast, -⟩ | ⟨a, ha⟩
    · cases hpast
    · exact ⟨a, Option.some.inj ha⟩

/-- What a call makes of a row of the table it makes as the table allows. -/
theorem next_of_table {next : Nat → α → Option α → Prop} (h : s.Warranted add make first)
    (hmake : ∀ k a v, make k (inj a) v → ∃ v' : Option α, v = v'.map inj ∧ next k a v')
    (htrans : ∀ k a b v, next k a (some b) → next k b v → next k a v)
    {pre post : List (Version Row)} {x y : Version Row} (he : s.versions = pre ++ x :: y :: post)
    {a : α} (hy : y.row = some (inj a)) :
    ∃ k v, x = ⟨some k, Option.map inj v⟩ ∧ next k a v := by
  rcases h.versions he with ⟨-, -, -, hnil⟩ | ⟨k, hk, hleft⟩
  · cases hnil
  · rw [List.head?_cons, Option.map_some, hy] at hleft
    obtain ⟨v, hv, hn⟩ := hleft.changed (hmake k) (htrans k)
    obtain ⟨w, row⟩ := x
    cases hk
    cases hv
    exact ⟨k, v, rfl, hn⟩

/-- **A slot that has held a row of the table is the life of one.** -/
theorem life {born : Option Nat → α → Prop} {next : Nat → α → Option α → Prop}
    (h : s.Warranted add make first)
    (hfirst : ∀ a, first (inj a) → born none a) (hadd : ∀ k a, add k (inj a) → born (some k) a)
    (hmake : ∀ k a v, make k (inj a) v → ∃ v' : Option α, v = v'.map inj ∧ next k a v')
    (hback : ∀ k r b, make k r (some (inj b)) → (∃ a, r = inj a) ∧ ∀ a, ¬ add k (inj a))
    (htrans : ∀ k a b v, next k a (some b) → next k b v → next k a v) {x : Version Row} {a : α}
    (hx : x ∈ s.versions) (hr : x.row = some (inj a)) : Life inj born next s.versions := by
  -- from a version of the table down to the oldest
  have hdown : ∀ (post pre : List (Version Row)) (x : Version Row) (a : α),
      s.versions = pre ++ x :: post → x.row = some (inj a) → Life inj born next (x :: post) := by
    intro post
    induction post with
    | nil =>
        intro pre x a he hx
        obtain ⟨w, v⟩ := x
        obtain rfl : v = some (inj a) := hx
        rcases h.versions he with ⟨r, hr, heq, -⟩ | ⟨k, hk, hleft⟩
        · cases heq
          exact .born (hfirst a hr)
        · obtain rfl : w = some k := hk
          rcases hleft.of_table (hback k) with ⟨-, ha⟩ | ⟨b, hb⟩
          · exact .born (hadd k a ha)
          · cases hb
    | cons y post ih =>
        intro pre x a he hx
        have he' : s.versions = (pre ++ [x]) ++ y :: post := by rw [he]; simp
        obtain ⟨b, hb⟩ := h.earlier_of_table hback he ⟨a, hx⟩
        obtain ⟨k, v, rfl, hn⟩ := h.next_of_table hmake htrans he hb
        have hlife := ih _ y b he' hb
        obtain ⟨w, row⟩ := y
        obtain rfl : row = some (inj b) := hb
        exact .next hn hlife
  -- and from there on to the latest
  have hup : ∀ (pre post : List (Version Row)) (x : Version Row) (a : α),
      s.versions = pre ++ x :: post → x.row = some (inj a) → Life inj born next (x :: post) →
      Life inj born next s.versions := by
    intro pre
    induction pre using List.reverseRecOn with
    | nil =>
        intro post x a he hx hlife
        rw [he]
        exact hlife
    | append_singleton pre z ih =>
        intro post x a he hx hlife
        have he' : s.versions = pre ++ z :: x :: post := by rw [he]; simp
        obtain ⟨k, v, rfl, hn⟩ := h.next_of_table hmake htrans he' hx
        obtain ⟨w, row⟩ := x
        obtain rfl : row = some (inj a) := hx
        cases v with
        | some b => exact ih _ _ b he' rfl (.next hn hlife)
        | none =>
            rcases List.eq_nil_or_concat pre with rfl | ⟨pre, z', rfl⟩
            · rw [he']
              exact .next hn hlife
            · rw [List.concat_eq_append, List.append_assoc, List.singleton_append] at he'
              rcases h.versions he' with ⟨-, -, -, hnil⟩ | ⟨k', -, hleft⟩
              · cases hnil
              · exact absurd rfl hleft.not_deleted
  obtain ⟨pre, post, he⟩ := List.append_of_mem hx
  exact hup pre post x a he hr (hdown post pre x a he hr)

end Slot.Warranted

end Basis
