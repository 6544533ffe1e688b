/-
What was the case while a call was under way.

A reply on record was given at some moment of the run, to a call that had not ended.
`During` speaks of such moments: what a caller was told at one of them was true then,
whatever has come of it since.
-/
import Authnz.Basis.Warrants

namespace Basis

variable {Op : Type} {Reply : Op → Type} {Ch σ Call Env α : Type}

namespace System

/-- At some moment of the run, with call `i` under way, this was so. -/
def During (S : System Op Reply Ch σ Call Env α) (s₀ : σ) (evs : List (Event Ch Call Env)) (i : Nat)
    (P : σ → Prop) : Prop :=
  ∃ evs₁ evs₂ mid, evs = evs₁ ++ evs₂ ∧ S.run ⟨s₀, []⟩ evs₁ = some mid ∧
    (∃ call, mid.call i = some call) ∧ mid.result i = none ∧ P mid.shared

variable {S : System Op Reply Ch σ Call Env α} {s₀ : σ} {evs : List (Event Ch Call Env)}
  {cfg cfg' : Config Op Reply σ Call α} {i : Nat}

theorem During.mono {P Q : σ → Prop} (h : S.During s₀ evs i P) (hPQ : ∀ s, P s → Q s) :
    S.During s₀ evs i Q := by
  obtain ⟨evs₁, evs₂, mid, hsplit, hrun, hcall, hres, hP⟩ := h
  exact ⟨evs₁, evs₂, mid, hsplit, hrun, hcall, hres, hPQ _ hP⟩

/-- The moment of a reply: what the state was, and that the caller was under way. -/
structure Given (S : System Op Reply Ch σ Call Env α) (s₀ : σ) (evs : List (Event Ch Call Env))
    (cfg : Config Op Reply σ Call α) (i : Nat) (o : Op) (r : Reply o)
    (past : List ((o : Op) × Reply o)) (mid : Config Op Reply σ Call α) : Prop where
  before : ∃ evs₁ evs₂, evs = evs₁ ++ evs₂ ∧ S.run ⟨s₀, []⟩ evs₁ = some mid ∧
    S.run mid evs₂ = some cfg
  called : ∃ call, mid.call i = some call
  ending : mid.result i = none
  log : mid.log i = past
  answer : ∃ ch s', S.answer i o ch mid.shared = some (s', r)

theorem Given.during {o : Op} {r : Reply o} {past : List ((o : Op) × Reply o)}
    {mid : Config Op Reply σ Call α} (h : S.Given s₀ evs cfg i o r past mid) {P : σ → Prop}
    (hP : P mid.shared) : S.During s₀ evs i P := by
  obtain ⟨evs₁, evs₂, hsplit, hrun, -⟩ := h.before
  exact ⟨evs₁, evs₂, mid, hsplit, hrun, h.called, h.ending, hP⟩

/-- A step that puts a reply on record is the one that gives it. -/
theorem next_gives {ev : Event Ch Call Env} (h : S.next cfg ev = some cfg') {o : Op} {r : Reply o}
    {past : List ((o : Op) × Reply o)} (hnot : ¬ ⟨o, r⟩ :: past <:+ cfg.log i)
    (hlog : ⟨o, r⟩ :: past <:+ cfg'.log i) : (∃ call, cfg.call i = some call) ∧
      cfg.result i = none ∧ cfg.log i = past ∧
        ∃ ch s', S.answer i o ch cfg.shared = some (s', r) := by
  cases ev with
  | spawn c =>
      obtain rfl : _ = cfg' := by simpa [next] using h
      refine absurd ?_ hnot
      unfold Config.log at hlog ⊢
      rw [List.getElem?_append] at hlog
      split at hlog
      · exact hlog
      · rw [List.getElem?_singleton] at hlog
        split at hlog <;> cases List.suffix_nil.mp hlog
  | env e =>
      obtain rfl : _ = cfg' := by simpa [next] using h
      exact absurd hlog hnot
  | step j ch =>
      simp only [next] at h
      split at h
      · rename_i c log o' k hj
        split at h
        · rename_i s r' hans
          obtain rfl : _ = cfg' := by simpa using h
          have hlt := (List.getElem?_eq_some_iff.mp hj).1
          by_cases hij : j = i
          · subst hij
            have hlogj : cfg.log j = log := by simp [Config.log, hj]
            have hlog' : ⟨o, r⟩ :: past <:+ ⟨o', r'⟩ :: log := by
              simpa [Config.log, List.getElem?_set_self hlt] using hlog
            rcases List.suffix_cons_iff.mp hlog' with heq | hold
            · cases heq
              exact ⟨⟨c, by simp [Config.call, hj]⟩, by simp [Config.result, hj], hlogj, ch, s, hans⟩
            · exact absurd (hlogj ▸ hold) hnot
          · refine absurd ?_ hnot
            simpa [Config.log, List.getElem?_set_ne hij] using hlog
        · cases h
      · cases h

/-- **Every reply on record was given at some moment of the run.** -/
theorem run_gave (hrun : S.run ⟨s₀, []⟩ evs = some cfg) {o : Op} {r : Reply o}
    {past : List ((o : Op) × Reply o)} (hlog : ⟨o, r⟩ :: past <:+ cfg.log i) :
    ∃ mid, S.Given s₀ evs cfg i o r past mid := by
  have hnot : ¬ ⟨o, r⟩ :: past <:+ (⟨s₀, []⟩ : Config Op Reply σ Call α).log i := by
    intro h
    cases List.suffix_nil.mp h
  obtain ⟨before, ev, after, mid, mid', hsplit, hbefore, hno, hnext, hyes, hafter⟩ :=
    run_first (Q := fun cfg => ⟨o, r⟩ :: past <:+ cfg.log i) hrun hnot hlog
  obtain ⟨hcall, hres, hpast, hans⟩ := next_gives hnext hno hyes
  exact ⟨mid, ⟨before, ev :: after, hsplit, hbefore, run_cons.mpr ⟨mid', hnext, hafter⟩⟩, hcall, hres,
    hpast, hans⟩

/-- A reply is on record with what came before it. -/
theorem run_gave_mem (hrun : S.run ⟨s₀, []⟩ evs = some cfg) {o : Op} {r : Reply o}
    (hmem : ⟨o, r⟩ ∈ cfg.log i) :
    ∃ mid past, ⟨o, r⟩ :: past <:+ cfg.log i ∧ S.Given s₀ evs cfg i o r past mid := by
  obtain ⟨later, past, heq⟩ := List.append_of_mem hmem
  have hsuf : ⟨o, r⟩ :: past <:+ cfg.log i := ⟨later, heq.symm⟩
  obtain ⟨mid, hgiven⟩ := run_gave hrun hsuf
  exact ⟨mid, past, hsuf, hgiven⟩

/-- An event adds at most a reply. -/
theorem next_log_suffix {ev : Event Ch Call Env} (h : S.next cfg ev = some cfg') (i : Nat) :
    cfg.log i <:+ cfg'.log i := by
  cases ev with
  | spawn c =>
      obtain rfl : _ = cfg' := by simpa [next] using h
      unfold Config.log
      cases hi : cfg.threads[i]? with
      | none => exact List.nil_suffix
      | some th =>
          have hlast : (cfg.threads ++ [⟨c, [], S.code c⟩])[i]? = some th := by
            rw [List.getElem?_append_left (List.getElem?_eq_some_iff.mp hi).1, hi]
          simp only [hlast]
          exact List.suffix_refl _
  | env e =>
      obtain rfl : _ = cfg' := by simpa [next] using h
      exact List.suffix_refl _
  | step j ch =>
      simp only [next] at h
      split at h
      · rename_i c log o k hj
        split at h
        · rename_i s r hans
          obtain rfl : _ = cfg' := by simpa using h
          unfold Config.log
          by_cases hij : j = i
          · subst hij
            rw [hj, List.getElem?_set_self (List.getElem?_eq_some_iff.mp hj).1]
            exact List.suffix_cons _ _
          · simp only [List.getElem?_set_ne hij]
            exact List.suffix_refl _
        · cases h
      · cases h

theorem run_log_suffix (h : S.run cfg evs = some cfg') (i : Nat) : cfg.log i <:+ cfg'.log i := by
  induction evs generalizing cfg with
  | nil =>
      obtain rfl : cfg = cfg' := by simpa [run] using h
      exact List.suffix_refl _
  | cons ev rest ih =>
      obtain ⟨mid, hmid, hrest⟩ := run_cons.mp h
      exact (next_log_suffix hmid i).trans (ih hrest)

/-- A run keeps the calls and their replies. -/
theorem later_of_run (h : S.run cfg evs = some cfg') : Policy.Later cfg cfg' :=
  ⟨fun hc => run_threads h hc, run_log_suffix h⟩

end System

end Basis
