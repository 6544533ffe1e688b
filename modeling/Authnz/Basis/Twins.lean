/-
Two runs side by side.

A property of pairs of runs, such as that a secret leaves no trace, is shown by
running the two in step: their programs ask for operations that pair, the answers
change the shared state alike, and only the replies differ where they may
(`Prog.InStep`).  The shared state is then the same throughout (`twins_run`).
-/
import Authnz.Basis.Interleave

namespace Basis

variable {Op : Type} {Reply : Op → Type} {α β γ δ ε : Type}

/-! ### Programs in step -/

/-- The programs ask for operations that pair, as long as the replies meet, and end where `Q`
holds. -/
inductive Prog.InStep (Pairs : Op → Op → Prop) (Meets : (o o' : Op) → Reply o → Reply o' → Prop)
    (Q : α → β → Prop) : Prog Op Reply α → Prog Op Reply β → Prop where
  | ret {a : α} {b : β} (h : Q a b) : InStep Pairs Meets Q (.ret a) (.ret b)
  | ask {o o' : Op} {k : Reply o → Prog Op Reply α} {k' : Reply o' → Prog Op Reply β}
      (ho : Pairs o o') (h : ∀ r r', Meets o o' r r' → InStep Pairs Meets Q (k r) (k' r')) :
      InStep Pairs Meets Q (.ask o k) (.ask o' k')

/-- Both values, or the same error. -/
inductive BothE (Q : α → β → Prop) : Except ε α → Except ε β → Prop where
  | ok {a : α} {b : β} (h : Q a b) : BothE Q (.ok a) (.ok b)
  | error (e : ε) : BothE Q (.error e) (.error e)

theorem BothE.mono {Q Q' : α → β → Prop} {r : Except ε α} {r' : Except ε β} (h : BothE Q r r')
    (hQ : ∀ a b, Q a b → Q' a b) : BothE Q' r r' := by
  cases h with
  | ok h => exact .ok (hQ _ _ h)
  | error e => exact .error e

namespace Prog

variable {Pairs : Op → Op → Prop} {Meets : (o o' : Op) → Reply o → Reply o' → Prop}
  {Q : α → β → Prop}

theorem inStep_mono {Q' : α → β → Prop} {p : Prog Op Reply α} {q : Prog Op Reply β}
    (h : InStep Pairs Meets Q p q) (hQ : ∀ a b, Q a b → Q' a b) : InStep Pairs Meets Q' p q := by
  induction h with
  | ret h => exact .ret (hQ _ _ h)
  | ask ho _ ih => exact .ask ho ih

theorem inStep_bind {R : γ → δ → Prop} {p : Prog Op Reply α} {q : Prog Op Reply β}
    {f : α → Prog Op Reply γ} {g : β → Prog Op Reply δ} (h : InStep Pairs Meets Q p q)
    (hf : ∀ a b, Q a b → InStep Pairs Meets R (f a) (g b)) :
    InStep Pairs Meets R (p >>= f) (q >>= g) := by
  induction h with
  | ret h => exact hf _ _ h
  | ask ho _ ih => exact .ask ho ih

theorem inStep_bindE {R : γ → δ → Prop} {p : ExceptT ε (Prog Op Reply) α}
    {q : ExceptT ε (Prog Op Reply) β} {f : α → ExceptT ε (Prog Op Reply) γ}
    {g : β → ExceptT ε (Prog Op Reply) δ} (h : InStep Pairs Meets (BothE Q) p.run q.run)
    (hf : ∀ a b, Q a b → InStep Pairs Meets (BothE R) (f a).run (g b).run) :
    InStep Pairs Meets (BothE R) (p >>= f).run (q >>= g).run := by
  refine inStep_bind h fun r r' hr => ?_
  cases hr with
  | ok h => exact hf _ _ h
  | error e => exact .ret (.error e)

/-- A program is in step with itself, if its operations have one reply for both. -/
theorem inStep_refl {P : Op → Prop} (hpairs : ∀ o, P o → Pairs o o)
    (hmeets : ∀ o, P o → ∀ r r', Meets o o r r' → r = r') {p : Prog Op Reply α} (hp : p.Uses P) :
    InStep Pairs Meets Eq p p := by
  induction p with
  | ret a => exact .ret rfl
  | ask o k ih =>
      refine .ask (hpairs o hp.1) fun r r' hr => ?_
      obtain rfl := hmeets o hp.1 r r' hr
      exact ih r (hp.2 r)

/-- Operations carried out by programs in step leave the programs in step. -/
theorem inStep_interp {Op' : Type} {Reply' : Op' → Type} {Pairs' : Op' → Op' → Prop}
    {Meets' : (o o' : Op') → Reply' o → Reply' o' → Prop}
    {h : (o : Op) → Prog Op' Reply' (Reply o)} {p : Prog Op Reply α} {q : Prog Op Reply β}
    (hpq : InStep Pairs Meets Q p q)
    (hh : ∀ o o', Pairs o o' → InStep Pairs' Meets' (Meets o o') (h o) (h o')) :
    InStep Pairs' Meets' Q (p.interp h) (q.interp h) := by
  induction hpq with
  | ret h => exact .ret h
  | ask ho _ ih => exact inStep_bind (hh _ _ ho) ih

end Prog

/-! ### Systems in step -/

variable {Ch σ Call Env : Type}

/-- The events happen to the same caller, and their choices pair. -/
inductive Event.Twin (Calls : Call → Call → Prop) (Choices : Ch → Ch → Prop) :
    Event Ch Call Env → Event Ch Call Env → Prop where
  | spawn {c c' : Call} (h : Calls c c') : Twin Calls Choices (.spawn c) (.spawn c')
  | step (i : Nat) {ch ch' : Ch} (h : Choices ch ch') : Twin Calls Choices (.step i ch) (.step i ch')
  | env (e : Env) : Twin Calls Choices (.env e) (.env e)

/-- One shared state, and threads in step. -/
structure Config.Twin (Pairs : Op → Op → Prop) (Meets : (o o' : Op) → Reply o → Reply o' → Prop)
    (cfg cfg' : Config Op Reply σ Call α) : Prop where
  shared : cfg.shared = cfg'.shared
  length : cfg.threads.length = cfg'.threads.length
  threads : ∀ (i : Nat) (th th' : Thread Op Reply Call α), cfg.threads[i]? = some th →
    cfg'.threads[i]? = some th' →
    Prog.InStep Pairs Meets (fun _ _ => True) th.prog th'.prog

/-- The operation about to be carried out is one `admits` allows with that choice. -/
def Config.Admits (admits : Op → Ch → Prop) (cfg : Config Op Reply σ Call α) :
    Event Ch Call Env → Prop
  | .step i ch => ∀ o, cfg.next i = some o → admits o ch
  | _ => True

section Twins

variable {S : System Op Reply Ch σ Call Env α} {Pairs : Op → Op → Prop}
  {Meets : (o o' : Op) → Reply o → Reply o' → Prop} {Calls : Call → Call → Prop}
  {Choices : Ch → Ch → Prop} {admits : Op → Ch → Prop} {cfg cfg' cfg₁ : Config Op Reply σ Call α}

theorem twins_next
    (hcode : ∀ c c', Calls c c' →
      Prog.InStep Pairs Meets (fun _ _ => True) (S.code c) (S.code c'))
    (hans : ∀ (i : Nat) (o o' : Op) (ch ch' : Ch) (s s' : σ) (r : Reply o), Pairs o o' →
      Choices ch ch' → admits o ch → S.answer i o ch s = some (s', r) →
      ∃ r', S.answer i o' ch' s = some (s', r') ∧ Meets o o' r r')
    {ev ev' : Event Ch Call Env} (hev : Event.Twin Calls Choices ev ev')
    (hadm : cfg.Admits admits ev) (htwin : cfg.Twin Pairs Meets cfg')
    (hnext : S.next cfg ev = some cfg₁) :
    ∃ cfg₁', S.next cfg' ev' = some cfg₁' ∧ cfg₁.Twin Pairs Meets cfg₁' := by
  cases hev with
  | @spawn c c' h =>
      obtain rfl : _ = cfg₁ := by simpa [System.next] using hnext
      refine ⟨_, rfl, htwin.shared, by simp [htwin.length], fun i th th' hth hth' => ?_⟩
      rcases get_snoc_cases hth with ⟨hi, rfl⟩ | hth <;>
        rcases get_snoc_cases hth' with ⟨hi', rfl⟩ | hth'
      · exact hcode c c' h
      · have hlt := (List.getElem?_eq_some_iff.mp hth').1
        have hlen := htwin.length
        omega
      · have hlt := (List.getElem?_eq_some_iff.mp hth).1
        have hlen := htwin.length
        omega
      · exact htwin.threads i th th' hth hth'
  | @step i ch ch' h =>
      simp only [System.next] at hnext
      split at hnext
      · rename_i c log o k hi
        split at hnext
        · rename_i s r hans₁
          obtain rfl : _ = cfg₁ := by simpa using hnext
          have hlt : i < cfg'.threads.length := by
            rw [← htwin.length]
            exact (List.getElem?_eq_some_iff.mp hi).1
          obtain ⟨⟨c', log', p'⟩, hi'⟩ : ∃ th', cfg'.threads[i]? = some th' :=
            ⟨_, List.getElem?_eq_getElem hlt⟩
          have hstep := htwin.threads i _ _ hi hi'
          cases hstep with
          | @ask _ o' _ k' ho hk =>
              have hok : admits o ch := hadm o (by simp [Config.next, hi])
              obtain ⟨r', hans', hmeet⟩ := hans i o o' ch ch' _ _ _ ho h hok hans₁
              rw [htwin.shared] at hans'
              refine ⟨⟨s, cfg'.threads.set i ⟨c', ⟨o', r'⟩ :: log', k' r'⟩⟩,
                by simp [System.next, hi', hans'], rfl, by simp [htwin.length],
                fun j th th' hth hth' => ?_⟩
              rcases get_set_cases hth with ⟨rfl, rfl⟩ | ⟨hne, hth⟩ <;>
                rcases get_set_cases hth' with ⟨hj, rfl⟩ | ⟨hne', hth'⟩
              · exact hk r r' hmeet
              · exact absurd rfl hne'
              · exact absurd hj hne
              · exact htwin.threads j th th' hth hth'
        · cases hnext
      · cases hnext
  | env e =>
      obtain rfl : _ = cfg₁ := by simpa [System.next] using hnext
      exact ⟨_, rfl, congrArg (S.move e) htwin.shared, htwin.length, htwin.threads⟩

/-- **Runs whose events are twins stay in step**, as long as every operation is admitted. -/
theorem twins_run
    (hcode : ∀ c c', Calls c c' →
      Prog.InStep Pairs Meets (fun _ _ => True) (S.code c) (S.code c'))
    (hans : ∀ (i : Nat) (o o' : Op) (ch ch' : Ch) (s s' : σ) (r : Reply o), Pairs o o' →
      Choices ch ch' → admits o ch → S.answer i o ch s = some (s', r) →
      ∃ r', S.answer i o' ch' s = some (s', r') ∧ Meets o o' r r')
    {evs evs' : List (Event Ch Call Env)} (hevs : List.Forall₂ (Event.Twin Calls Choices) evs evs')
    (hadm : S.Along (fun cfg ev => cfg.Admits admits ev) cfg evs)
    (htwin : cfg.Twin Pairs Meets cfg') (hrun : S.run cfg evs = some cfg₁) :
    ∃ cfg₁', S.run cfg' evs' = some cfg₁' ∧ cfg₁.Twin Pairs Meets cfg₁' := by
  induction hevs generalizing cfg cfg' with
  | nil =>
      obtain rfl : cfg = cfg₁ := by simpa [System.run] using hrun
      exact ⟨cfg', rfl, htwin⟩
  | @cons ev ev' rest rest' hev _ ih =>
      obtain ⟨mid, hmid, hrest⟩ := System.run_cons.mp hrun
      obtain ⟨mid', hmid', htwin'⟩ := twins_next hcode hans hev hadm.1 htwin hmid
      have hadm' := hadm.2
      rw [hmid] at hadm'
      obtain ⟨cfg₁', hrun', hend⟩ := ih hadm' htwin' hrest
      exact ⟨cfg₁', System.run_cons.mpr ⟨mid', hmid', hrun'⟩, hend⟩

end Twins

end Basis
