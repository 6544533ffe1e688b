/-
Histories kept beside a run.

A statement such as "this value was read by at most one call" is about what
happened, not about the state that is left.  A `Watcher` notes what it needs of
every reply and of every move of the environment; `System.watch` carries its notes
beside the shared state.  The calls do not see the notes, so watching changes no
run: `exists_watch_run` adds them to any.
-/
import Authnz.Basis.Interleave

namespace Basis

variable {Op : Type} {Reply : Op → Type} {Ch σ η Call Env α : Type}

/-- What is noted of the replies the calls get and of the environment's moves. -/
structure Watcher (Op : Type) (Reply : Op → Type) (Env η : Type) where
  /-- Caller `me` was given this reply. -/
  note : (me : Nat) → (o : Op) → Reply o → η → η
  moved : Env → η → η

/-- The configuration without the notes. -/
def Config.unwatched (cfg : Config Op Reply (σ × η) Call α) : Config Op Reply σ Call α :=
  ⟨cfg.shared.1, cfg.threads⟩

namespace System

/-- The system with the notes beside its state. -/
def watch (S : System Op Reply Ch σ Call Env α) (N : Watcher Op Reply Env η) :
    System Op Reply Ch (σ × η) Call Env α where
  answer me o ch s := (S.answer me o ch s.1).map fun p => ((p.1, N.note me o p.2 s.2), p.2)
  code := S.code
  move e s := (S.move e s.1, N.moved e s.2)

variable {S : System Op Reply Ch σ Call Env α} {N : Watcher Op Reply Env η}

/-- The notes only follow the reply. -/
theorem watch_answer {me : Nat} {o : Op} {ch : Ch} {s s' : σ × η} {r : Reply o} :
    (S.watch N).answer me o ch s = some (s', r) ↔
      S.answer me o ch s.1 = some (s'.1, r) ∧ s'.2 = N.note me o r s.2 := by
  obtain ⟨s', h'⟩ := s'
  unfold watch
  constructor
  · intro h
    obtain ⟨⟨t, r'⟩, hans, heq⟩ := Option.map_eq_some_iff.mp h
    cases heq
    exact ⟨hans, rfl⟩
  · intro hpost
    obtain ⟨hans, hnote⟩ := hpost
    exact Option.map_eq_some_iff.mpr ⟨(s', r), hans, by rw [show h' = _ from hnote]⟩

/-- One event, with and without the notes. -/
theorem watch_next (cfg : Config Op Reply (σ × η) Call α) (ev : Event Ch Call Env) :
    ((S.watch N).next cfg ev).map Config.unwatched = S.next cfg.unwatched ev := by
  obtain ⟨⟨s, h⟩, ths⟩ := cfg
  cases ev with
  | spawn c => rfl
  | step i ch =>
      simp only [next, Config.unwatched]
      cases ths[i]? with
      | none => rfl
      | some th =>
          obtain ⟨c, log, p⟩ := th
          cases p with
          | ret a => rfl
          | ask o k =>
              simp only [watch]
              cases S.answer i o ch s with
              | none => rfl
              | some p => rfl
  | env e => rfl

/-- Every run can be watched, from any notes on. -/
theorem exists_watch_run {cfg : Config Op Reply (σ × η) Call α} {cfg' : Config Op Reply σ Call α}
    {evs : List (Event Ch Call Env)} (h : S.run cfg.unwatched evs = some cfg') :
    ∃ w, (S.watch N).run cfg evs = some w ∧ w.unwatched = cfg' := by
  induction evs generalizing cfg with
  | nil =>
      obtain rfl : cfg.unwatched = cfg' := by simpa [run] using h
      exact ⟨cfg, rfl, rfl⟩
  | cons ev rest ih =>
      obtain ⟨mid, hmid, hrest⟩ := run_cons.mp h
      rw [← watch_next (N := N)] at hmid
      obtain ⟨wmid, hwmid, rfl⟩ := Option.map_eq_some_iff.mp hmid
      obtain ⟨w, hw, hcfg⟩ := ih hrest
      exact ⟨w, run_cons.mpr ⟨wmid, hwmid, hw⟩, hcfg⟩

/-- A condition on the events of a run says the same of the watched run. -/
theorem watch_along {C : Config Op Reply σ Call α → Event Ch Call Env → Prop}
    {cfg : Config Op Reply (σ × η) Call α} {evs : List (Event Ch Call Env)}
    (h : S.Along C cfg.unwatched evs) :
    (S.watch N).Along (fun cfg ev => C cfg.unwatched ev) cfg evs := by
  induction evs generalizing cfg with
  | nil => trivial
  | cons ev rest ih =>
      obtain ⟨hev, htail⟩ := h
      refine ⟨hev, ?_⟩
      rw [← watch_next (N := N)] at htail
      cases hn : (S.watch N).next cfg ev with
      | none => trivial
      | some mid =>
          rw [hn] at htail
          exact ih htail

end System

end Basis
