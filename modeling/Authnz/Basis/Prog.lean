/-
Programs that put one operation at a time to their environment.

A service function is a `Prog`: it asks for an operation, is handed the reply and
goes on.  The tree says nothing about what the operations do, so the same program
can be run alone, here, or interleaved with others (`Basis/Interleave.lean`).

What an operation does is an `Answer`: the caller's number, the operation, a
choice of the scheduler (fail, draw this number, ...) and the state give the next
state and the reply, or nothing when the caller has to wait.

Two ways of looking at a run of one program are kept side by side.  `Exec` is the
relation every statement speaks about: some admitted choices lead from this state
to that one.  `exec?` computes one such run from a list of choices, which is how
a concrete run is exhibited.
-/
import Mathlib.Tactic.Common

namespace Basis

/-- A program over the operations `Op`, finishing with a value of type `α`. -/
inductive Prog (Op : Type) (Reply : Op → Type) (α : Type) : Type where
  | ret (a : α) : Prog Op Reply α
  | ask (o : Op) (k : Reply o → Prog Op Reply α) : Prog Op Reply α

/-- What the environment makes of an operation: caller, operation, choice, state. -/
abbrev Answer (Op : Type) (Reply : Op → Type) (Ch σ : Type) : Type :=
  Nat → (o : Op) → Ch → σ → Option (σ × Reply o)

namespace Prog

variable {Op : Type} {Reply : Op → Type} {α β ε : Type}

/-- Sequencing: the second program starts where the first one ends. -/
protected def bind : Prog Op Reply α → (α → Prog Op Reply β) → Prog Op Reply β
  | .ret a, f => f a
  | .ask o k, f => .ask o fun r => (k r).bind f

instance : Monad (Prog Op Reply) where
  pure := .ret
  bind := Prog.bind

/-- The program that asks for one operation and returns the reply. -/
def op (o : Op) : Prog Op Reply (Reply o) := .ask o .ret

@[simp] theorem pure_eq (a : α) : (pure a : Prog Op Reply α) = .ret a := rfl

@[simp] theorem ret_bind (a : α) (f : α → Prog Op Reply β) : (.ret a : Prog Op Reply α) >>= f = f a :=
  rfl

@[simp] theorem ask_bind (o : Op) (k : Reply o → Prog Op Reply α) (f : α → Prog Op Reply β) :
    (Prog.ask o k : Prog Op Reply α) >>= f = .ask o fun r => k r >>= f := rfl

/-! ### Replacing operations by programs -/

section Interp

variable {Op' : Type} {Reply' : Op' → Type}

/-- Run the program with every operation carried out by a program of its own. -/
def interp (h : (o : Op) → Prog Op' Reply' (Reply o)) : Prog Op Reply α → Prog Op' Reply' α
  | .ret a => .ret a
  | .ask o k => (h o).bind fun r => (k r).interp h

@[simp] theorem interp_ret (h : (o : Op) → Prog Op' Reply' (Reply o)) (a : α) :
    (.ret a : Prog Op Reply α).interp h = .ret a := rfl

theorem interp_ask (h : (o : Op) → Prog Op' Reply' (Reply o)) (o : Op)
    (k : Reply o → Prog Op Reply α) :
    (Prog.ask o k).interp h = h o >>= fun r => (k r).interp h := rfl

theorem bind_assoc (p : Prog Op Reply α) (f : α → Prog Op Reply β)
    {γ : Type} (g : β → Prog Op Reply γ) : p >>= f >>= g = p >>= fun a => f a >>= g := by
  induction p with
  | ret a => rfl
  | ask o k ih => exact congrArg (Prog.ask o) (funext fun r => ih r)

theorem interp_bind (h : (o : Op) → Prog Op' Reply' (Reply o)) (p : Prog Op Reply α)
    (f : α → Prog Op Reply β) : (p >>= f).interp h = p.interp h >>= fun a => (f a).interp h := by
  induction p with
  | ret a => rfl
  | ask o k ih =>
      rw [ask_bind, interp_ask, interp_ask, bind_assoc]
      exact congrArg (h o >>= ·) (funext fun r => ih r)

end Interp

/-! ### The operations a program may ask for -/

/-- Whatever the replies, the program asks only for operations in `P`. -/
def Uses (P : Op → Prop) : Prog Op Reply α → Prop
  | .ret _ => True
  | .ask o k => P o ∧ ∀ r, (k r).Uses P

theorem uses_op {P : Op → Prop} {o : Op} (h : P o) : (op o : Prog Op Reply (Reply o)).Uses P :=
  ⟨h, fun _ => trivial⟩

theorem uses_bind {P : Op → Prop} {p : Prog Op Reply α} {f : α → Prog Op Reply β}
    (hp : p.Uses P) (hf : ∀ a, (f a).Uses P) : (p >>= f).Uses P := by
  induction p with
  | ret a => exact hf a
  | ask o k ih => exact ⟨hp.1, fun r => ih r (hp.2 r)⟩

/-- What the programs carrying the operations out ask for. -/
theorem uses_interp {Op' : Type} {Reply' : Op' → Type} {P : Op → Prop} {P' : Op' → Prop}
    {h : (o : Op) → Prog Op' Reply' (Reply o)} (hh : ∀ o, P o → (h o).Uses P')
    {p : Prog Op Reply α} (hp : p.Uses P) : (p.interp h).Uses P' := by
  induction p with
  | ret a => trivial
  | ask o k ih => exact uses_bind (hh o hp.1) fun r => ih r (hp.2 r)

/-- The same for a sequence that stops at the first error. -/
theorem uses_bindE {P : Op → Prop} {p : ExceptT ε (Prog Op Reply) α}
    {f : α → ExceptT ε (Prog Op Reply) β} (hp : p.run.Uses P) (hf : ∀ a, (f a).run.Uses P) :
    (p >>= f).run.Uses P := by
  refine uses_bind hp fun r => ?_
  cases r with
  | ok a => exact hf a
  | error e => trivial

/-! ### What a program may return -/

/-- Whatever the replies, what the program returns satisfies `Q`. -/
def Yields (Q : α → Prop) : Prog Op Reply α → Prop
  | .ret a => Q a
  | .ask _ k => ∀ r, (k r).Yields Q

theorem yields_bind {Q : β → Prop} (p : Prog Op Reply α) {f : α → Prog Op Reply β}
    (hf : ∀ a, (f a).Yields Q) : (p >>= f).Yields Q := by
  induction p with
  | ret a => exact hf a
  | ask o k ih => exact fun r => ih r

theorem yields_bind_of {P : α → Prop} {Q : β → Prop} {p : Prog Op Reply α}
    {f : α → Prog Op Reply β} (hp : p.Yields P) (hf : ∀ a, P a → (f a).Yields Q) :
    (p >>= f).Yields Q := by
  induction p with
  | ret a => exact hf a hp
  | ask o k ih => exact fun r => ih r (hp r)

/-- An error neither part of a sequence returns, the sequence does not return. -/
theorem yields_bindE {e : ε} {p : ExceptT ε (Prog Op Reply) α}
    {f : α → ExceptT ε (Prog Op Reply) β} (hp : p.run.Yields (· ≠ .error e))
    (hf : ∀ a, (f a).run.Yields (· ≠ .error e)) : (p >>= f).run.Yields (· ≠ .error e) := by
  refine yields_bind_of hp fun r hr => ?_
  cases r with
  | ok a => exact hf a
  | error e' =>
      intro h
      cases h
      exact hr rfl

/-! ### Running alone -/

section Exec

variable {Ch σ : Type}

/-- A run of the program alone, as caller `me`, with choices `admits` allows. -/
inductive Exec (answer : Answer Op Reply Ch σ) (me : Nat) (admits : σ → Op → Ch → Prop) :
    Prog Op Reply α → σ → α → σ → Prop where
  | ret (a : α) (s : σ) : Exec answer me admits (.ret a) s a s
  | ask {o : Op} {k : Reply o → Prog Op Reply α} {ch : Ch} {s s' s'' : σ} {r : Reply o} {a : α}
      (hch : admits s o ch) (hans : answer me o ch s = some (s', r))
      (hrest : Exec answer me admits (k r) s' a s'') : Exec answer me admits (.ask o k) s a s''

variable {answer : Answer Op Reply Ch σ} {me : Nat} {admits : σ → Op → Ch → Prop}

@[simp] theorem exec_ret {a b : α} {s s' : σ} :
    Exec answer me admits (.ret a : Prog Op Reply α) s b s' ↔ b = a ∧ s' = s := by
  constructor
  · intro h
    cases h
    exact ⟨rfl, rfl⟩
  · rintro ⟨rfl, rfl⟩
    exact .ret _ _

theorem exec_ask {o : Op} {k : Reply o → Prog Op Reply α} {s s'' : σ} {a : α} :
    Exec answer me admits (.ask o k) s a s'' ↔
      ∃ ch s' r, admits s o ch ∧ answer me o ch s = some (s', r) ∧
        Exec answer me admits (k r) s' a s'' := by
  constructor
  · intro h
    cases h with
    | ask hch hans hrest => exact ⟨_, _, _, hch, hans, hrest⟩
  · rintro ⟨ch, s', r, hch, hans, hrest⟩
    exact .ask hch hans hrest

theorem exec_op {o : Op} {s s' : σ} {r : Reply o} :
    Exec answer me admits (op o) s r s' ↔ ∃ ch, admits s o ch ∧ answer me o ch s = some (s', r) := by
  rw [op, exec_ask]
  constructor
  · rintro ⟨ch, s₁, r₁, hch, hans, hrest⟩
    obtain ⟨rfl, rfl⟩ := exec_ret.mp hrest
    exact ⟨ch, hch, hans⟩
  · rintro ⟨ch, hch, hans⟩
    exact ⟨ch, s', r, hch, hans, .ret _ _⟩

theorem exec_bind {p : Prog Op Reply α} {f : α → Prog Op Reply β} {s s'' : σ} {b : β} :
    Exec answer me admits (p >>= f) s b s'' ↔
      ∃ a s', Exec answer me admits p s a s' ∧ Exec answer me admits (f a) s' b s'' := by
  induction p generalizing s with
  | ret a =>
      constructor
      · exact fun h => ⟨a, s, .ret _ _, h⟩
      · rintro ⟨a', s', h, hrest⟩
        obtain ⟨rfl, rfl⟩ := exec_ret.mp h
        exact hrest
  | ask o k ih =>
      rw [ask_bind, exec_ask]
      constructor
      · rintro ⟨ch, s₁, r, hch, hans, hrest⟩
        obtain ⟨a, s', hk, hf⟩ := (ih r).mp hrest
        exact ⟨a, s', .ask hch hans hk, hf⟩
      · rintro ⟨a, s', h, hf⟩
        obtain ⟨ch, s₁, r, hch, hans, hk⟩ := exec_ask.mp h
        exact ⟨ch, s₁, r, hch, hans, (ih r).mpr ⟨a, s', hk, hf⟩⟩

/-- A sequence that stops at the first error either goes on or stops. -/
theorem exec_bindE {p : ExceptT ε (Prog Op Reply) α} {f : α → ExceptT ε (Prog Op Reply) β}
    {s s'' : σ} {b : Except ε β} :
    Exec answer me admits (p >>= f).run s b s'' ↔
      (∃ a s', Exec answer me admits p.run s (.ok a) s' ∧
        Exec answer me admits (f a).run s' b s'') ∨
      (∃ e, Exec answer me admits p.run s (.error e) s'' ∧ b = .error e) := by
  refine Iff.trans exec_bind ?_
  constructor
  · rintro ⟨r, s', hp, hrest⟩
    cases r with
    | ok a => exact .inl ⟨a, s', hp, hrest⟩
    | error e =>
        obtain ⟨rfl, rfl⟩ := exec_ret.mp hrest
        exact .inr ⟨e, hp, rfl⟩
  · rintro (⟨a, s', hp, hrest⟩ | ⟨e, hp, rfl⟩)
    · exact ⟨.ok a, s', hp, hrest⟩
    · exact ⟨.error e, s'', hp, .ret _ _⟩

/-- What every admitted operation preserves, the run preserves. -/
theorem Exec.invariant {P : Op → Prop} {I : σ → Prop} {p : Prog Op Reply α} {s s' : σ} {a : α}
    (h : Exec answer me admits p s a s') (hp : p.Uses P)
    (hop : ∀ s o ch s' r, P o → admits s o ch → answer me o ch s = some (s', r) → I s → I s')
    (hs : I s) : I s' := by
  induction h with
  | ret => exact hs
  | ask hch hans _ ih => exact ih (hp.2 _) (hop _ _ _ _ _ hp.1 hch hans hs)

/-- A run may begin with any operation that is answered. -/
theorem exists_exec_ask {o : Op} {k : Reply o → Prog Op Reply α} {ch : Ch} {s s' : σ} {r : Reply o}
    {a : α} (hans : answer me o ch s = some (s', r))
    (h : ∃ s'', Exec answer me (fun _ _ _ => True) (k r) s' a s'') :
    ∃ s'', Exec answer me (fun _ _ _ => True) (.ask o k) s a s'' := by
  obtain ⟨s'', hrest⟩ := h
  exact ⟨s'', .ask trivial hans hrest⟩

/-- A program has a run where each operation it may ask for has an admitted answer, and stays where
that is so. -/
theorem exists_exec {P : Op → Prop} {I : σ → Prop}
    (hop : ∀ s o, P o → I s → ∃ ch s' r, admits s o ch ∧ answer me o ch s = some (s', r) ∧ I s')
    {p : Prog Op Reply α} (hp : p.Uses P) {s : σ} (hs : I s) :
    ∃ a s', Exec answer me admits p s a s' := by
  induction p generalizing s with
  | ret a => exact ⟨a, s, .ret _ _⟩
  | ask o k ih =>
      obtain ⟨ch, s₁, r, hch, hans, hs₁⟩ := hop s o hp.1 hs
      obtain ⟨a, s', hrest⟩ := ih r (hp.2 r) hs₁
      exact ⟨a, s', .ask hch hans hrest⟩

/-- Widening what the scheduler may choose keeps the run. -/
theorem Exec.mono {admits' : σ → Op → Ch → Prop} {p : Prog Op Reply α} {s s' : σ} {a : α}
    (h : Exec answer me admits p s a s') (hle : ∀ s o ch, admits s o ch → admits' s o ch) :
    Exec answer me admits' p s a s' := by
  induction h with
  | ret => exact .ret _ _
  | ask hch hans _ ih => exact .ask (hle _ _ _ hch) hans ih

/-- What holds at every operation of a run may be asked of the run. -/
theorem Exec.guarded {P : Op → Prop} {I : σ → Prop} {G : σ → Op → Ch → Prop} {p : Prog Op Reply α}
    {s s' : σ} {a : α} (h : Exec answer me admits p s a s') (hp : p.Uses P)
    (hop : ∀ s o ch s' r, P o → admits s o ch → answer me o ch s = some (s', r) → I s → I s')
    (hG : ∀ s o ch, P o → I s → G s o ch) (hs : I s) : Exec answer me G p s a s' := by
  induction h with
  | ret => exact .ret _ _
  | ask hch hans _ ih =>
      exact .ask (hG _ _ _ hp.1 hs) hans (ih (hp.2 _) (hop _ _ _ _ _ hp.1 hch hans hs))

/-! ### What every run ends in -/

/-- Every admitted run of the program from here ends in a state and value of which `Q` holds. -/
def Always (answer : Answer Op Reply Ch σ) (me : Nat) (admits : σ → Op → Ch → Prop)
    (p : Prog Op Reply α) (s : σ) (Q : σ → α → Prop) : Prop :=
  ∀ a s', Exec answer me admits p s a s' → Q s' a

theorem always_ret {a : α} {s : σ} {Q : σ → α → Prop} (h : Q s a) :
    Always answer me admits (.ret a) s Q := by
  intro b s' hexec
  obtain ⟨rfl, rfl⟩ := exec_ret.mp hexec
  exact h

theorem always_ask {o : Op} {k : Reply o → Prog Op Reply α} {s : σ} {Q : σ → α → Prop}
    (h : ∀ ch s' r, admits s o ch → answer me o ch s = some (s', r) →
      Always answer me admits (k r) s' Q) : Always answer me admits (.ask o k) s Q := by
  intro a s'' hexec
  obtain ⟨ch, s', r, hch, hans, hrest⟩ := exec_ask.mp hexec
  exact h ch s' r hch hans a s'' hrest

theorem always_op {o : Op} {s : σ} {Q : σ → Reply o → Prop}
    (h : ∀ ch s' r, admits s o ch → answer me o ch s = some (s', r) → Q s' r) :
    Always answer me admits (op o) s Q :=
  always_ask fun ch s' r hch hans => always_ret (h ch s' r hch hans)

theorem always_bind {p : Prog Op Reply α} {f : α → Prog Op Reply β} {s : σ} {Q : σ → β → Prop}
    (h : Always answer me admits p s fun s' a => Always answer me admits (f a) s' Q) :
    Always answer me admits (p >>= f) s Q := by
  intro b s'' hexec
  obtain ⟨a, s', hp, hf⟩ := exec_bind.mp hexec
  exact h a s' hp b s'' hf

theorem always_mono {p : Prog Op Reply α} {s : σ} {Q Q' : σ → α → Prop}
    (h : Always answer me admits p s Q) (hQ : ∀ s' a, Q s' a → Q' s' a) :
    Always answer me admits p s Q' := fun a s' hexec => hQ s' a (h a s' hexec)

/-- The run a list of choices determines, if each of them is admitted. -/
def exec? (answer : Answer Op Reply Ch σ) (me : Nat) (admits : σ → Op → Ch → Bool) :
    List Ch → Prog Op Reply α → σ → Option (α × σ)
  | _, .ret a, s => some (a, s)
  | [], .ask _ _, _ => none
  | ch :: chs, .ask o k, s =>
      if admits s o ch then
        match answer me o ch s with
        | some (s', r) => exec? answer me admits chs (k r) s'
        | none => none
      else none

theorem exec_of_exec? {admits : σ → Op → Ch → Bool} {p : Prog Op Reply α} :
    ∀ {chs : List Ch} {s s' : σ} {a : α}, exec? answer me admits chs p s = some (a, s') →
      Exec answer me (fun s o ch => admits s o ch = true) p s a s' := by
  induction p with
  | ret a =>
      intro chs s s' b h
      obtain ⟨rfl, rfl⟩ : a = b ∧ s = s' := by simpa [exec?] using h
      exact .ret _ _
  | ask o k ih =>
      intro chs s s' b h
      cases chs with
      | nil => simp [exec?] at h
      | cons ch chs =>
          by_cases hch : admits s o ch = true
          · cases hans : answer me o ch s with
            | none => simp [exec?, hch, hans] at h
            | some p =>
                obtain ⟨s₁, r⟩ := p
                simp only [exec?, hch, if_true, hans] at h
                exact .ask hch hans (ih r h)
          · simp [exec?, hch] at h

end Exec

end Prog

end Basis
