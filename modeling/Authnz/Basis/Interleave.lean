/-
Programs run by many callers at once over one shared state.

A configuration is the shared state and one thread per call made so far.  An event
starts a call, lets one thread carry out the operation it is asking for, or lets
the environment move on its own; any order of events is a run.  A thread keeps a
log of the replies it has had, which is what a statement about "the value this
call read" refers to.

A `Protocol` says what a call may do without naming a line of its code: phases, and
which operation and reply lead from one to the next.  `Walks` is the proof that a
program keeps to it, done once per function.  From then on an invariant of the
whole system is about phases: `run_tracks` lifts one that every `Move` preserves to
every run.
-/
import Authnz.Basis.Prog

namespace Basis

/-- A call in progress: what was asked, the replies so far, the rest of its program. -/
structure Thread (Op : Type) (Reply : Op → Type) (Call α : Type) where
  call : Call
  log : List ((o : Op) × Reply o)
  prog : Prog Op Reply α

/-- The shared state and the calls made so far, in the order they were made. -/
structure Config (Op : Type) (Reply : Op → Type) (σ Call α : Type) where
  shared : σ
  threads : List (Thread Op Reply Call α)

inductive Event (Ch Call Env : Type) where
  /-- A new call arrives. -/
  | spawn (c : Call)
  /-- Thread `i` carries out its next operation. -/
  | step (i : Nat) (ch : Ch)
  /-- The environment moves: an entry expires, a clock ticks. -/
  | env (e : Env)

/-- What the calls run, and what their operations and the environment do. -/
structure System (Op : Type) (Reply : Op → Type) (Ch σ Call Env α : Type) where
  answer : Answer Op Reply Ch σ
  code : Call → Prog Op Reply α
  move : Env → σ → σ

namespace Prog

variable {Op : Type} {Reply : Op → Type} {α : Type}

/-- The operation the program asks for next. -/
def next : Prog Op Reply α → Option Op
  | .ret _ => none
  | .ask o _ => some o

/-- The result, once the program has ended. -/
def result : Prog Op Reply α → Option α
  | .ret a => some a
  | .ask _ _ => none

@[simp] theorem next_ret (a : α) : (.ret a : Prog Op Reply α).next = none := rfl

@[simp] theorem next_ask (o : Op) (k : Reply o → Prog Op Reply α) : (Prog.ask o k).next = some o :=
  rfl

@[simp] theorem result_ret (a : α) : (.ret a : Prog Op Reply α).result = some a := rfl

@[simp] theorem result_ask (o : Op) (k : Reply o → Prog Op Reply α) :
    (Prog.ask o k).result = none := rfl

end Prog

variable {Op : Type} {Reply : Op → Type} {Ch σ Call Env α : Type}

namespace Config

/-- What thread `i` was asked to do. -/
def call (cfg : Config Op Reply σ Call α) (i : Nat) : Option Call := cfg.threads[i]?.map (·.call)

/-- The operation thread `i` carries out when it is next scheduled. -/
def next (cfg : Config Op Reply σ Call α) (i : Nat) : Option Op :=
  cfg.threads[i]?.bind (·.prog.next)

/-- What thread `i` returned, if it has returned. -/
def result (cfg : Config Op Reply σ Call α) (i : Nat) : Option α :=
  cfg.threads[i]?.bind (·.prog.result)

/-- The replies thread `i` has had, the latest first. -/
def log (cfg : Config Op Reply σ Call α) (i : Nat) : List ((o : Op) × Reply o) :=
  (cfg.threads[i]?.map (·.log)).getD []

end Config

namespace System

/-- One event. `none`: the thread does not exist, has ended, or has to wait. -/
def next (S : System Op Reply Ch σ Call Env α) (cfg : Config Op Reply σ Call α) :
    Event Ch Call Env → Option (Config Op Reply σ Call α)
  | .spawn c => some { cfg with threads := cfg.threads ++ [⟨c, [], S.code c⟩] }
  | .step i ch =>
      match cfg.threads[i]? with
      | some ⟨c, log, .ask o k⟩ =>
          match S.answer i o ch cfg.shared with
          | some (s, r) => some ⟨s, cfg.threads.set i ⟨c, ⟨o, r⟩ :: log, k r⟩⟩
          | none => none
      | _ => none
  | .env e => some { cfg with shared := S.move e cfg.shared }

/-- A sequence of events. -/
def run (S : System Op Reply Ch σ Call Env α) (cfg : Config Op Reply σ Call α) :
    List (Event Ch Call Env) → Option (Config Op Reply σ Call α)
  | [] => some cfg
  | ev :: evs =>
      match S.next cfg ev with
      | some cfg' => S.run cfg' evs
      | none => none

/-- Every event of the run happens in a configuration where `C` admits it. -/
def Along (S : System Op Reply Ch σ Call Env α)
    (C : Config Op Reply σ Call α → Event Ch Call Env → Prop) :
    Config Op Reply σ Call α → List (Event Ch Call Env) → Prop
  | _, [] => True
  | cfg, ev :: evs =>
      C cfg ev ∧
        match S.next cfg ev with
        | some cfg' => S.Along C cfg' evs
        | none => True

/-- A concrete run can be checked against a decidable condition. -/
instance decidableAlong (S : System Op Reply Ch σ Call Env α)
    (C : Config Op Reply σ Call α → Event Ch Call Env → Prop) [hC : ∀ cfg ev, Decidable (C cfg ev)] :
    ∀ cfg evs, Decidable (S.Along C cfg evs)
  | _, [] => isTrue trivial
  | cfg, ev :: evs =>
      match hC cfg ev with
      | isFalse h => isFalse fun h' => h h'.1
      | isTrue h =>
          match hn : S.next cfg ev with
          | none => isTrue ⟨h, by rw [hn]; trivial⟩
          | some cfg' =>
              match decidableAlong S C cfg' evs with
              | isTrue h' => isTrue ⟨h, by rw [hn]; exact h'⟩
              | isFalse h' => isFalse fun hall => h' (by have h2 := hall.2; rw [hn] at h2; exact h2)

variable {S : System Op Reply Ch σ Call Env α}
  {C : Config Op Reply σ Call α → Event Ch Call Env → Prop}
  {cfg cfg' cfg₀ : Config Op Reply σ Call α} {evs evs' : List (Event Ch Call Env)}

theorem run_cons {ev : Event Ch Call Env} :
    S.run cfg (ev :: evs) = some cfg' ↔
      ∃ mid, S.next cfg ev = some mid ∧ S.run mid evs = some cfg' := by
  rw [run]
  cases h : S.next cfg ev with
  | none => simp
  | some mid => simp

theorem run_append :
    S.run cfg (evs ++ evs') = some cfg' ↔
      ∃ mid, S.run cfg evs = some mid ∧ S.run mid evs' = some cfg' := by
  induction evs generalizing cfg with
  | nil => simp [run]
  | cons ev rest ih =>
      rw [List.cons_append, run_cons]
      constructor
      · rintro ⟨mid, hmid, hrest⟩
        obtain ⟨mid', h₁, h₂⟩ := ih.mp hrest
        exact ⟨mid', run_cons.mpr ⟨mid, hmid, h₁⟩, h₂⟩
      · rintro ⟨mid', h, h₂⟩
        obtain ⟨mid, hmid, h₁⟩ := run_cons.mp h
        exact ⟨mid, hmid, ih.mpr ⟨mid', h₁, h₂⟩⟩

theorem along_append (h : S.Along C cfg (evs ++ evs')) {mid : Config Op Reply σ Call α}
    (hrun : S.run cfg evs = some mid) : S.Along C cfg evs ∧ S.Along C mid evs' := by
  induction evs generalizing cfg with
  | nil =>
      obtain rfl : cfg = mid := by simpa [run] using hrun
      exact ⟨trivial, h⟩
  | cons ev rest ih =>
      obtain ⟨cfg₁, hnext, hrest⟩ := run_cons.mp hrun
      obtain ⟨hev, htail⟩ := h
      rw [hnext] at htail
      obtain ⟨h₁, h₂⟩ := ih htail hrest
      refine ⟨⟨hev, ?_⟩, h₂⟩
      rw [hnext]
      exact h₁

theorem along_true (S : System Op Reply Ch σ Call Env α) (cfg : Config Op Reply σ Call α)
    (evs : List (Event Ch Call Env)) : S.Along (fun _ _ => True) cfg evs := by
  induction evs generalizing cfg with
  | nil => trivial
  | cons ev rest ih =>
      refine ⟨trivial, ?_⟩
      cases hn : S.next cfg ev with
      | none => trivial
      | some mid => exact ih mid

theorem along_mono {C' : Config Op Reply σ Call α → Event Ch Call Env → Prop}
    (hC : ∀ cfg ev, C cfg ev → C' cfg ev) (h : S.Along C cfg evs) : S.Along C' cfg evs := by
  induction evs generalizing cfg with
  | nil => trivial
  | cons ev rest ih =>
      refine ⟨hC _ _ h.1, ?_⟩
      have hrest := h.2
      cases hn : S.next cfg ev with
      | none => trivial
      | some mid =>
          rw [hn] at hrest
          exact ih hrest

/-- A condition on each event alone. -/
theorem along_of_forall (S : System Op Reply Ch σ Call Env α) {D : Event Ch Call Env → Prop}
    {cfg : Config Op Reply σ Call α} {evs : List (Event Ch Call Env)} (h : ∀ ev ∈ evs, D ev) :
    S.Along (fun _ ev => D ev) cfg evs := by
  induction evs generalizing cfg with
  | nil => trivial
  | cons ev rest ih =>
      refine ⟨h ev List.mem_cons_self, ?_⟩
      cases hn : S.next cfg ev with
      | none => trivial
      | some mid => exact ih fun ev' hev' => h ev' (List.mem_cons_of_mem ev hev')

theorem along_and {C' : Config Op Reply σ Call α → Event Ch Call Env → Prop}
    (h : S.Along C cfg evs) (h' : S.Along C' cfg evs) :
    S.Along (fun cfg ev => C cfg ev ∧ C' cfg ev) cfg evs := by
  induction evs generalizing cfg with
  | nil => trivial
  | cons ev rest ih =>
      refine ⟨⟨h.1, h'.1⟩, ?_⟩
      obtain ⟨-, h⟩ := h
      obtain ⟨-, h'⟩ := h'
      cases hn : S.next cfg ev with
      | none => trivial
      | some mid =>
          rw [hn] at h h'
          exact ih h h'

/-- What every admitted event preserves holds at the end of the run. -/
theorem run_invariant {I : Config Op Reply σ Call α → Prop} (h₀ : I cfg₀)
    (hnext : ∀ cfg ev cfg', I cfg → C cfg ev → S.next cfg ev = some cfg' → I cfg')
    (hC : S.Along C cfg₀ evs) (hrun : S.run cfg₀ evs = some cfg) : I cfg := by
  induction evs generalizing cfg₀ with
  | nil =>
      obtain rfl : cfg₀ = cfg := by simpa [run] using hrun
      exact h₀
  | cons ev rest ih =>
      obtain ⟨mid, hmid, hrest⟩ := run_cons.mp hrun
      obtain ⟨hev, htail⟩ := hC
      rw [hmid] at htail
      exact ih (hnext _ _ _ h₀ hev hmid) htail hrest

/-- A thread that is scheduled alone runs as its program runs alone. -/
theorem run_alone {admits : σ → Op → Ch → Prop} {i : Nat} {p : Prog Op Reply α} {s s' : σ} {a : α}
    (h : Prog.Exec S.answer i admits p s a s') {c : Call} {log : List ((o : Op) × Reply o)}
    {ths : List (Thread Op Reply Call α)} (hi : ths[i]? = some ⟨c, log, p⟩) :
    ∃ (chs : List Ch) (log' : List ((o : Op) × Reply o)), S.run ⟨s, ths⟩ (chs.map (.step i)) =
      some ⟨s', ths.set i ⟨c, log', .ret a⟩⟩ := by
  induction h generalizing log ths with
  | ret a s =>
      obtain ⟨hlt, hget⟩ := List.getElem?_eq_some_iff.mp hi
      refine ⟨[], log, ?_⟩
      rw [← hget, List.set_getElem_self]
      rfl
  | ask hch hans hrest ih =>
      rename_i o k ch s s₁ s' r a
      have hlt := (List.getElem?_eq_some_iff.mp hi).1
      have hi' : (ths.set i ⟨c, ⟨o, r⟩ :: log, k r⟩)[i]? = some ⟨c, ⟨o, r⟩ :: log, k r⟩ :=
        List.getElem?_set_self hlt
      obtain ⟨chs, log', hrun⟩ := ih hi'
      refine ⟨ch :: chs, log', ?_⟩
      rw [List.set_set] at hrun
      rw [List.map_cons, run_cons]
      exact ⟨_, by simp [next, hi, hans], hrun⟩

/-- Calls are never forgotten, so a run only adds threads at the end. -/
theorem next_threads {ev : Event Ch Call Env} (h : S.next cfg ev = some cfg') (i : Nat)
    {c : Call} (hi : cfg.call i = some c) : cfg'.call i = some c := by
  cases ev with
  | spawn d =>
      obtain rfl : _ = cfg' := by simpa [next] using h
      obtain ⟨hlt, -⟩ : ∃ h : i < cfg.threads.length, cfg.threads[i].call = c := by
        simpa [Config.call, List.getElem?_eq_some_iff] using hi
      simpa [Config.call, List.getElem?_append_left hlt] using hi
  | step j ch =>
      simp only [next] at h
      split at h
      · rename_i d log o k hj
        split at h
        · rename_i s r hans
          obtain rfl : _ = cfg' := by simpa using h
          by_cases hij : j = i
          · subst hij
            have hlt : j < cfg.threads.length := (List.getElem?_eq_some_iff.mp hj).1
            have hc : d = c := by simpa [Config.call, hj] using hi
            simp [Config.call, hlt, hc]
          · simpa [Config.call, List.getElem?_set_ne hij] using hi
        · cases h
      · cases h
  | env e =>
      obtain rfl : _ = cfg' := by simpa [next] using h
      exact hi

theorem run_threads (h : S.run cfg evs = some cfg') {i : Nat} {c : Call}
    (hi : cfg.call i = some c) : cfg'.call i = some c := by
  induction evs generalizing cfg with
  | nil =>
      obtain rfl : cfg = cfg' := by simpa [run] using h
      exact hi
  | cons ev rest ih =>
      obtain ⟨mid, hmid, hrest⟩ := run_cons.mp h
      exact ih hrest (next_threads hmid i hi)

/-- A reply on record stays on record. -/
theorem next_log {ev : Event Ch Call Env} (h : S.next cfg ev = some cfg') (i : Nat)
    {x : (o : Op) × Reply o} (hx : x ∈ cfg.log i) : x ∈ cfg'.log i := by
  cases ev with
  | spawn d =>
      obtain rfl : _ = cfg' := by simpa [next] using h
      unfold Config.log at hx ⊢
      cases hi : cfg.threads[i]? with
      | none =>
          rw [hi] at hx
          cases hx
      | some th =>
          rw [hi] at hx
          rwa [List.getElem?_append_left (List.getElem?_eq_some_iff.mp hi).1, hi]
  | step j ch =>
      simp only [next] at h
      split at h
      · rename_i d log o k hj
        split at h
        · rename_i s r hans
          obtain rfl : _ = cfg' := by simpa using h
          unfold Config.log at hx ⊢
          by_cases hij : j = i
          · subst hij
            rw [hj] at hx
            rw [List.getElem?_set_self (List.getElem?_eq_some_iff.mp hj).1]
            exact List.mem_cons_of_mem _ hx
          · rwa [List.getElem?_set_ne hij]
        · cases h
      · cases h
  | env e =>
      obtain rfl : _ = cfg' := by simpa [next] using h
      exact hx

theorem run_log (h : S.run cfg evs = some cfg') {i : Nat} {x : (o : Op) × Reply o}
    (hx : x ∈ cfg.log i) : x ∈ cfg'.log i := by
  induction evs generalizing cfg with
  | nil =>
      obtain rfl : cfg = cfg' := by simpa [run] using h
      exact hx
  | cons ev rest ih =>
      obtain ⟨mid, hmid, hrest⟩ := run_cons.mp h
      exact ih hrest (next_log hmid i hx)

/-- A thread that has returned does nothing more. -/
theorem next_result {ev : Event Ch Call Env} (h : S.next cfg ev = some cfg') {i : Nat} {a : α}
    (hi : cfg.result i = some a) : cfg'.result i = some a := by
  obtain ⟨th, hth, hres⟩ := Option.bind_eq_some_iff.mp hi
  cases ev with
  | spawn d =>
      obtain rfl : _ = cfg' := by simpa [next] using h
      have hlt := (List.getElem?_eq_some_iff.mp hth).1
      simpa [Config.result, List.getElem?_append_left hlt] using hi
  | step j ch =>
      simp only [next] at h
      split at h
      · rename_i d log o k hj
        split at h
        · obtain rfl : _ = cfg' := by simpa using h
          by_cases hij : j = i
          · subst hij
            obtain rfl := Option.some.inj (hj.symm.trans hth)
            cases hres
          · simpa [Config.result, List.getElem?_set_ne hij] using hi
        · cases h
      · cases h
  | env e =>
      obtain rfl : _ = cfg' := by simpa [next] using h
      exact hi

theorem run_result (h : S.run cfg evs = some cfg') {i : Nat} {a : α}
    (hi : cfg.result i = some a) : cfg'.result i = some a := by
  induction evs generalizing cfg with
  | nil =>
      obtain rfl : cfg = cfg' := by simpa [run] using h
      exact hi
  | cons ev rest ih =>
      obtain ⟨mid, hmid, hrest⟩ := run_cons.mp h
      exact ih hrest (next_result hmid hi)

/-- What comes to hold in a run comes to hold at one of its events. -/
theorem run_first {Q : Config Op Reply σ Call α → Prop} (h : S.run cfg evs = some cfg')
    (h₀ : ¬ Q cfg) (hQ : Q cfg') :
    ∃ before ev after mid mid', evs = before ++ ev :: after ∧ S.run cfg before = some mid ∧
      ¬ Q mid ∧ S.next mid ev = some mid' ∧ Q mid' ∧ S.run mid' after = some cfg' := by
  induction evs generalizing cfg with
  | nil =>
      obtain rfl : cfg = cfg' := by simpa [run] using h
      exact absurd hQ h₀
  | cons ev rest ih =>
      obtain ⟨mid, hmid, hrest⟩ := run_cons.mp h
      by_cases hQmid : Q mid
      · exact ⟨[], ev, rest, cfg, mid, rfl, rfl, h₀, hmid, hQmid, hrest⟩
      · obtain ⟨before, ev', after, mid₁, mid₂, hsplit, hrun, hrest⟩ := ih hrest hQmid
        refine ⟨ev :: before, ev', after, mid₁, mid₂, by rw [hsplit, List.cons_append], ?_, hrest⟩
        exact run_cons.mpr ⟨mid, hmid, hrun⟩

end System

/-! ### Lists of threads -/

theorem get_set_cases {β : Type} {l : List β} {i j : Nat} {b x : β}
    (h : (l.set i b)[j]? = some x) : (j = i ∧ x = b) ∨ (j ≠ i ∧ l[j]? = some x) := by
  by_cases hij : i = j
  · subst hij
    rw [List.getElem?_set_self'] at h
    obtain ⟨y, -, rfl⟩ := Option.map_eq_some_iff.mp h
    exact .inl ⟨rfl, rfl⟩
  · rw [List.getElem?_set_ne hij] at h
    exact .inr ⟨fun hc => hij hc.symm, h⟩

theorem get_snoc_cases {β : Type} {l : List β} {j : Nat} {b x : β}
    (h : (l ++ [b])[j]? = some x) : (j = l.length ∧ x = b) ∨ l[j]? = some x := by
  by_cases hlt : j < l.length
  · rw [List.getElem?_append_left hlt] at h
    exact .inr h
  · have hj : j = l.length := by
      have := (List.getElem?_eq_some_iff.mp h).1
      rw [List.length_append, List.length_singleton] at this
      omega
    subst hj
    rw [List.getElem?_concat_length] at h
    exact .inl ⟨rfl, (Option.some.inj h).symm⟩

/-! ### Protocols -/

/-- What a call may do, told in phases. -/
structure Protocol (Op : Type) (Reply : Op → Type) (Call α : Type) where
  Phase : Type
  start : Call → Phase
  /-- In this phase the call may ask for `o`, and the reply leads on to that phase. -/
  Step : Call → Phase → (o : Op) → Reply o → Phase → Prop
  /-- In this phase the call may return that value. -/
  Final : Call → Phase → α → Prop

namespace Protocol

variable {β γ ε : Type}

/-- The program keeps to the protocol from phase `ph` on, ending where `Q` holds. -/
def Walks (P : Protocol Op Reply Call α) (c : Call) :
    Prog Op Reply β → P.Phase → (P.Phase → β → Prop) → Prop
  | .ret b, ph, Q => Q ph b
  | .ask o k, ph, Q => ∀ r, ∃ ph', P.Step c ph o r ph' ∧ P.Walks c (k r) ph' Q

/-- The code of a call keeps to the protocol from start to return. -/
def Follows (P : Protocol Op Reply Call α) (c : Call) (p : Prog Op Reply α) : Prop :=
  P.Walks c p (P.start c) (P.Final c)

variable {P : Protocol Op Reply Call α} {c : Call} {ph : P.Phase}

theorem walks_mono {p : Prog Op Reply β} {Q Q' : P.Phase → β → Prop} (h : P.Walks c p ph Q)
    (hQ : ∀ ph b, Q ph b → Q' ph b) : P.Walks c p ph Q' := by
  induction p generalizing ph with
  | ret b => exact hQ _ _ h
  | ask o k ih =>
      intro r
      obtain ⟨ph', hstep, hrest⟩ := h r
      exact ⟨ph', hstep, ih r hrest⟩

/-- A program whose operations leave the phase as it is stays in it. -/
theorem walks_uses {A : Op → Prop} {p : Prog Op Reply β} (hp : p.Uses A)
    (hstep : ∀ o r, A o → P.Step c ph o r ph) : P.Walks c p ph fun ph' _ => ph' = ph := by
  induction p with
  | ret b => rfl
  | ask o k ih => exact fun r => ⟨ph, hstep o r hp.1, ih r (hp.2 r)⟩

/-- A program that keeps to one protocol keeps to another that has the same steps. -/
theorem walks_embed {Call' α' : Type} (P' : Protocol Op Reply Call' α') (c' : Call')
    (f : P.Phase → P'.Phase)
    (hstep : ∀ {ph o r ph'}, P.Step c ph o r ph' → P'.Step c' (f ph) o r (f ph'))
    {p : Prog Op Reply β} {Q : P.Phase → β → Prop} (h : P.Walks c p ph Q) :
    P'.Walks c' p (f ph) fun ph' b => ∃ ph'', ph' = f ph'' ∧ Q ph'' b := by
  induction p generalizing ph with
  | ret b => exact ⟨ph, rfl, h⟩
  | ask o k ih =>
      intro r
      obtain ⟨ph', hs, hrest⟩ := h r
      exact ⟨f ph', hstep hs, ih r hrest⟩

theorem walks_bind {p : Prog Op Reply β} {f : β → Prog Op Reply γ} {Q : P.Phase → γ → Prop}
    (h : P.Walks c p ph fun ph' b => P.Walks c (f b) ph' Q) : P.Walks c (p >>= f) ph Q := by
  induction p generalizing ph with
  | ret b => exact h
  | ask o k ih =>
      intro r
      obtain ⟨ph', hstep, hrest⟩ := h r
      exact ⟨ph', hstep, ih r hrest⟩

theorem walks_interp_bind {Op' : Type} {Reply' : Op' → Type}
    {h : (o : Op') → Prog Op Reply (Reply' o)} {p : Prog Op' Reply' β} {f : β → Prog Op' Reply' γ}
    {Q : P.Phase → γ → Prop}
    (hw : P.Walks c (p.interp h) ph fun ph' b => P.Walks c ((f b).interp h) ph' Q) :
    P.Walks c ((p >>= f).interp h) ph Q := by
  rw [Prog.interp_bind]
  exact walks_bind hw

/-- A thread as the protocol sees it. -/
structure Ghost (P : Protocol Op Reply Call α) where
  call : Call
  log : List ((o : Op) × Reply o)
  phase : P.Phase

/-- The ghosts follow the threads: same calls and logs, and each program walks on. -/
structure Tracked (P : Protocol Op Reply Call α) (cfg : Config Op Reply σ Call α)
    (gs : List P.Ghost) : Prop where
  length : gs.length = cfg.threads.length
  each : ∀ (i : Nat) (th : Thread Op Reply Call α) (g : P.Ghost), cfg.threads[i]? = some th →
    gs[i]? = some g →
    g.call = th.call ∧ g.log = th.log ∧ P.Walks th.call th.prog g.phase (P.Final th.call)

/-- What an event does to the shared state and the phases. -/
inductive Move (S : System Op Reply Ch σ Call Env α) (P : Protocol Op Reply Call α)
    (cfg : Config Op Reply σ Call α) (gs : List P.Ghost) :
    Event Ch Call Env → σ → List P.Ghost → Prop where
  | spawn (c : Call) : Move S P cfg gs (.spawn c) cfg.shared (gs ++ [⟨c, [], P.start c⟩])
  | step {i : Nat} {ch : Ch} {g : P.Ghost} {o : Op} {s : σ} {r : Reply o} {ph : P.Phase}
      (hg : gs[i]? = some g) (hcall : cfg.call i = some g.call) (hnext : cfg.next i = some o)
      (hans : S.answer i o ch cfg.shared = some (s, r)) (hstep : P.Step g.call g.phase o r ph) :
      Move S P cfg gs (.step i ch) s (gs.set i ⟨g.call, ⟨o, r⟩ :: g.log, ph⟩)
  | env (e : Env) : Move S P cfg gs (.env e) (S.move e cfg.shared) gs

namespace Tracked

variable {S : System Op Reply Ch σ Call Env α} {cfg cfg' : Config Op Reply σ Call α}
  {gs : List P.Ghost}

theorem thread (h : Tracked P cfg gs) {i : Nat} {g : P.Ghost} (hg : gs[i]? = some g) :
    ∃ th, cfg.threads[i]? = some th ∧ g.call = th.call ∧ g.log = th.log ∧
      P.Walks th.call th.prog g.phase (P.Final th.call) := by
  have hlt : i < cfg.threads.length := by
    rw [← h.length]
    exact (List.getElem?_eq_some_iff.mp hg).1
  have hth : cfg.threads[i]? = some cfg.threads[i] := List.getElem?_eq_getElem hlt
  exact ⟨_, hth, h.each i _ g hth hg⟩

theorem ghost (h : Tracked P cfg gs) {i : Nat} {th : Thread Op Reply Call α}
    (hth : cfg.threads[i]? = some th) :
    ∃ g, gs[i]? = some g ∧ g.call = th.call ∧ g.log = th.log ∧
      P.Walks th.call th.prog g.phase (P.Final th.call) := by
  have hlt : i < gs.length := by
    rw [h.length]
    exact (List.getElem?_eq_some_iff.mp hth).1
  have hg : gs[i]? = some gs[i] := List.getElem?_eq_getElem hlt
  exact ⟨_, hg, h.each i th _ hth hg⟩

theorem call (h : Tracked P cfg gs) {i : Nat} {g : P.Ghost} (hg : gs[i]? = some g) :
    cfg.call i = some g.call := by
  obtain ⟨th, hth, hcall, -, -⟩ := h.thread hg
  simp [Config.call, hth, hcall]

theorem log (h : Tracked P cfg gs) {i : Nat} {g : P.Ghost} (hg : gs[i]? = some g) :
    cfg.log i = g.log := by
  obtain ⟨th, hth, -, hlog, -⟩ := h.thread hg
  simp [Config.log, hth, hlog]

/-- A thread that has returned is in a phase where it may return that. -/
theorem final (h : Tracked P cfg gs) {i : Nat} {a : α} (hres : cfg.result i = some a) :
    ∃ g, gs[i]? = some g ∧ P.Final g.call g.phase a := by
  cases hth : cfg.threads[i]? with
  | none => simp [Config.result, hth] at hres
  | some th =>
      obtain ⟨g, hg, hcall, -, hwalk⟩ := h.ghost hth
      refine ⟨g, hg, ?_⟩
      cases hp : th.prog with
      | ret b =>
          obtain rfl : b = a := by simpa [Config.result, hth, hp] using hres
          rw [hp] at hwalk
          rw [hcall]
          exact hwalk
      | ask o k => simp [Config.result, hth, hp] at hres

/-- In a phase that is not final, the thread's next operation is one the phase has a step for. -/
theorem asking (h : Tracked P cfg gs) [hr : ∀ o, Nonempty (Reply o)] {i : Nat} {g : P.Ghost}
    (hg : gs[i]? = some g) (hfinal : ∀ a, ¬ P.Final g.call g.phase a) :
    ∃ th ∈ cfg.threads, th.call = g.call ∧
      ∃ o r ph, th.prog.next = some o ∧ P.Step g.call g.phase o r ph := by
  obtain ⟨th, hth, hcall, -, hwalk⟩ := h.thread hg
  refine ⟨th, List.mem_of_getElem? hth, hcall.symm, ?_⟩
  rw [hcall] at hfinal ⊢
  cases hp : th.prog with
  | ret a =>
      rw [hp] at hwalk
      exact absurd hwalk (hfinal a)
  | ask o k =>
      rw [hp] at hwalk
      obtain ⟨r⟩ := hr o
      obtain ⟨ph, hstep, -⟩ := hwalk r
      exact ⟨o, r, ph, rfl, hstep⟩

theorem calls (h : Tracked P cfg gs) : cfg.call = fun k => gs[k]?.map (·.call) := by
  funext k
  cases hth : cfg.threads[k]? with
  | none =>
      have hge := List.getElem?_eq_none_iff.mp hth
      rw [Config.call, hth, List.getElem?_eq_none (by rw [h.length]; exact hge)]
      rfl
  | some th =>
      obtain ⟨g, hg, -⟩ := h.ghost hth
      rw [h.call hg, hg]
      rfl

/-- A thread that has not returned has a step to take. -/
theorem unreturned (h : Tracked P cfg gs) [hr : ∀ o, Nonempty (Reply o)] {i : Nat} {g : P.Ghost}
    (hg : gs[i]? = some g) (hres : cfg.result i = none) :
    ∃ o r ph, cfg.next i = some o ∧ P.Step g.call g.phase o r ph := by
  obtain ⟨th, hth, hcall, -, hwalk⟩ := h.thread hg
  cases hp : th.prog with
  | ret a => simp [Config.result, hth, hp] at hres
  | ask o k =>
      rw [hp] at hwalk
      obtain ⟨r⟩ := hr o
      obtain ⟨ph, hstep, -⟩ := hwalk r
      exact ⟨o, r, ph, by simp [Config.next, hth, hp], hcall ▸ hstep⟩

/-- Every event of the system is a move of the phases. -/
theorem next (h : Tracked P cfg gs) (hcode : ∀ c, P.Follows c (S.code c))
    {ev : Event Ch Call Env} (hnext : S.next cfg ev = some cfg') :
    ∃ gs', Move S P cfg gs ev cfg'.shared gs' ∧ Tracked P cfg' gs' := by
  cases ev with
  | spawn c =>
      obtain rfl : _ = cfg' := by simpa [System.next] using hnext
      refine ⟨_, .spawn c, by simp [h.length], ?_⟩
      intro i th g hth hg
      rw [List.getElem?_append] at hth hg
      rw [h.length] at hg
      split at hth
      · rename_i hlt
        rw [if_pos hlt] at hg
        exact h.each i th g hth hg
      · rename_i hge
        rw [if_neg hge] at hg
        rw [List.getElem?_singleton] at hth hg
        split at hth
        · rename_i hz
          rw [if_pos hz] at hg
          obtain rfl := Option.some.inj hth
          obtain rfl := Option.some.inj hg
          exact ⟨rfl, rfl, hcode c⟩
        · cases hth
  | step i ch =>
      simp only [System.next] at hnext
      split at hnext
      · rename_i c log o k hi
        split at hnext
        · rename_i s r hans
          obtain rfl : _ = cfg' := by simpa using hnext
          obtain ⟨g, hg, hcall, hlog, hwalk⟩ := h.ghost hi
          obtain ⟨ph, hstep, hrest⟩ := hwalk r
          refine ⟨_, .step hg (h.call hg) (by simp [Config.next, hi]) hans (hcall ▸ hstep),
            by simp [h.length], ?_⟩
          intro j th g' hth hg'
          by_cases hij : i = j
          · subst hij
            have hlt : i < cfg.threads.length := (List.getElem?_eq_some_iff.mp hi).1
            have hlt' : i < gs.length := (List.getElem?_eq_some_iff.mp hg).1
            rw [List.getElem?_set_self hlt] at hth
            rw [List.getElem?_set_self hlt'] at hg'
            obtain rfl := Option.some.inj hth
            obtain rfl := Option.some.inj hg'
            exact ⟨hcall, by simp [hlog], hrest⟩
          · rw [List.getElem?_set_ne hij] at hth hg'
            exact h.each j th g' hth hg'
        · cases hnext
      · cases hnext
  | env e =>
      obtain rfl : _ = cfg' := by simpa [System.next] using hnext
      exact ⟨gs, .env e, h.length, h.each⟩

end Tracked

/-- **An invariant of the phases that every admitted move preserves holds after every run.** -/
theorem run_tracks {S : System Op Reply Ch σ Call Env α} {P : Protocol Op Reply Call α}
    {C : Config Op Reply σ Call α → Event Ch Call Env → Prop}
    {cfg₀ cfg : Config Op Reply σ Call α} {evs : List (Event Ch Call Env)}
    (hcode : ∀ c, P.Follows c (S.code c)) (I : σ → List P.Ghost → Prop)
    (hmove : ∀ cfg gs ev s' gs', Tracked P cfg gs → I cfg.shared gs → C cfg ev →
      Move S P cfg gs ev s' gs' → I s' gs')
    (h₀ : ∃ gs, Tracked P cfg₀ gs ∧ I cfg₀.shared gs)
    (hC : S.Along C cfg₀ evs) (hrun : S.run cfg₀ evs = some cfg) :
    ∃ gs, Tracked P cfg gs ∧ I cfg.shared gs := by
  refine System.run_invariant (I := fun cfg => ∃ gs, Tracked P cfg gs ∧ I cfg.shared gs)
    h₀ ?_ hC hrun
  rintro cfg₁ ev cfg₂ ⟨gs, htr, hI⟩ hev hnext
  obtain ⟨gs', hmv, htr'⟩ := htr.next hcode hnext
  exact ⟨gs', htr', hmove _ _ _ _ _ htr hI hev hmv⟩

/-- No call made yet: nothing to track. -/
theorem tracked_nil (P : Protocol Op Reply Call α) (s : σ) : Tracked P ⟨s, []⟩ [] :=
  ⟨rfl, by intro i th g hth; simp at hth⟩

end Protocol

end Basis
