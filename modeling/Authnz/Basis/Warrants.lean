/-
Calls under a policy, and rows that answer for what became of them.

A policy says what a call may ask for on the replies it has had so far.  It is a
protocol whose phase is the log itself, so a program is walked through it like
through any other, and from then on every reply on record is one the call was
permitted to ask for.

For a table the permission is about rows: which rows a caller may add, and what it
may make of a row that is there.  A slot is `Warranted` when each of its versions
came about that way from the one before.  Every statement keeps that, whatever
statements of other callers it runs between, so the history of a row can be read
without looking at any run.
-/
import Authnz.Basis.Alone
import Authnz.Basis.Evolve
import Authnz.Basis.Interleave

namespace Basis

/-! ### Policies -/

/-- The replies a call has had, the latest first. -/
abbrev Log (Op : Type) (Reply : Op → Type) : Type := List ((o : Op) × Reply o)

/-- What a call may ask for and what it may return, on the replies it has had. -/
structure Policy (Op : Type) (Reply : Op → Type) (Call α : Type) where
  Permits : Call → Log Op Reply → Op → Prop
  Answers : Call → Log Op Reply → α → Prop

namespace Policy

variable {Op : Type} {Reply : Op → Type} {Call α Ch σ Env : Type} (π : Policy Op Reply Call α)

/-- A policy is a protocol: the phase of a call is its log. -/
def protocol : Protocol Op Reply Call α where
  Phase := Log Op Reply
  start _ := []
  Step call log o r log' := π.Permits call log o ∧ log' = ⟨o, r⟩ :: log
  Final := π.Answers

/-- Whatever the call has a reply to, it was permitted to ask for. -/
def Kept (call : Call) (log : Log Op Reply) : Prop :=
  ∀ (o : Op) (r : Reply o) (past : Log Op Reply), ⟨o, r⟩ :: past <:+ log → π.Permits call past o

variable {π}

theorem kept_nil {call : Call} : π.Kept call [] := by
  intro o r past h
  cases List.suffix_nil.mp h

theorem Kept.cons {call : Call} {log : Log Op Reply} (h : π.Kept call log) {o : Op} (r : Reply o)
    (ho : π.Permits call log o) : π.Kept call (⟨o, r⟩ :: log) := by
  intro o' r' past hpast
  rcases List.suffix_cons_iff.mp hpast with heq | hold
  · cases heq
    exact ho
  · exact h o' r' past hold

/-- What is known of a call under the policy. -/
structure Upheld (π : Policy Op Reply Call α) (cfg : Config Op Reply σ Call α) : Prop where
  kept : ∀ {i : Nat} {call : Call}, cfg.call i = some call → π.Kept call (cfg.log i)
  /-- What it is about to ask for. -/
  asks : ∀ {i : Nat} {call : Call} {o : Op}, cfg.call i = some call → cfg.next i = some o →
    π.Permits call (cfg.log i) o
  answers : ∀ {i : Nat} {call : Call} {a : α}, cfg.call i = some call → cfg.result i = some a →
    π.Answers call (cfg.log i) a

/-- The calls are the same or more, and so are the replies of each. -/
structure Later (cfg cfg' : Config Op Reply σ Call α) : Prop where
  call : ∀ {i : Nat} {call : Call}, cfg.call i = some call → cfg'.call i = some call
  log : ∀ i, cfg.log i <:+ cfg'.log i

/-- A permitted step of the system, as an invariant of it sees the step. -/
inductive Step (π : Policy Op Reply Call α) (S : System Op Reply Ch σ Call Env α)
    (cfg : Config Op Reply σ Call α) : Config Op Reply σ Call α → Prop
  /-- The shared state is as it was, and a call has come in. -/
  | spawn {cfg' : Config Op Reply σ Call α} (hlater : Later cfg cfg')
      (hshared : cfg'.shared = cfg.shared) (hlog : ∀ i, cfg'.log i = cfg.log i)
      (hlen : cfg'.threads.length = cfg.threads.length + 1) : Step π S cfg cfg'
  | env {cfg' : Config Op Reply σ Call α} (e : Env) (hlater : Later cfg cfg')
      (hshared : cfg'.shared = S.move e cfg.shared) (hlog : ∀ i, cfg'.log i = cfg.log i)
      (hlen : cfg'.threads.length = cfg.threads.length) : Step π S cfg cfg'
  | step {cfg' : Config Op Reply σ Call α} {i : Nat} {call : Call} {o : Op} {ch : Ch} {r : Reply o}
      (hlater : Later cfg cfg') (hi : i < cfg.threads.length) (hcall : cfg.call i = some call)
      (hpermits : π.Permits call (cfg.log i) o)
      (hans : S.answer i o ch cfg.shared = some (cfg'.shared, r))
      (hlog : cfg'.log i = ⟨o, r⟩ :: cfg.log i) (hother : ∀ j, j ≠ i → cfg'.log j = cfg.log j)
      (hlen : cfg'.threads.length = cfg.threads.length) : Step π S cfg cfg'

section Runs

variable {S : System Op Reply Ch σ Call Env α} {cfg cfg' : Config Op Reply σ Call α}

/-- The ghosts' phases are their logs, and every one has kept to the policy. -/
def Logged (π : Policy Op Reply Call α) (gs : List π.protocol.Ghost) : Prop :=
  ∀ g ∈ gs, g.phase = g.log ∧ π.Kept g.call g.log

/-- An event is a permitted step. -/
theorem step_of_next {gs : List π.protocol.Ghost} (htr : Protocol.Tracked π.protocol cfg gs)
    (hlogged : Logged π gs) {ev : Event Ch Call Env} (hnext : S.next cfg ev = some cfg') :
    Step π S cfg cfg' := by
  have hcall : ∀ {i : Nat} {c : Call}, cfg.call i = some c → cfg'.call i = some c :=
    fun hc => System.next_threads hnext _ hc
  cases ev with
  | spawn c =>
      obtain rfl : _ = cfg' := by simpa [System.next] using hnext
      have hlog : ∀ i, ({ cfg with threads := cfg.threads ++ [⟨c, [], S.code c⟩] } :
          Config Op Reply σ Call α).log i = cfg.log i := by
        intro i
        unfold Config.log
        rw [List.getElem?_append]
        split
        · rfl
        · rename_i hge
          rw [List.getElem?_eq_none (Nat.le_of_not_lt hge), List.getElem?_singleton]
          split <;> rfl
      exact .spawn ⟨hcall, fun i => (hlog i).symm ▸ List.suffix_refl _⟩ rfl hlog (by simp)
  | env e =>
      obtain rfl : _ = cfg' := by simpa [System.next] using hnext
      exact .env e ⟨hcall, fun i => List.suffix_refl _⟩ rfl (fun _ => rfl) rfl
  | step i ch =>
      simp only [System.next] at hnext
      split at hnext
      · rename_i call log o k hi
        split at hnext
        · rename_i s r hans
          obtain rfl : _ = cfg' := by simpa using hnext
          have hlt := (List.getElem?_eq_some_iff.mp hi).1
          obtain ⟨g, hg, hgcall, hglog, hwalk⟩ := htr.ghost hi
          obtain ⟨-, ⟨hpermits, -⟩, -⟩ := hwalk r
          obtain ⟨hphase, -⟩ := hlogged g (List.mem_of_getElem? hg)
          have hlogi : cfg.log i = log := by simp [Config.log, hi]
          have hself : (⟨s, cfg.threads.set i ⟨call, ⟨o, r⟩ :: log, k r⟩⟩ :
              Config Op Reply σ Call α).log i = ⟨o, r⟩ :: cfg.log i := by
            rw [hlogi]
            simp [Config.log, List.getElem?_set_self hlt]
          have hother : ∀ j, j ≠ i → (⟨s, cfg.threads.set i ⟨call, ⟨o, r⟩ :: log, k r⟩⟩ :
              Config Op Reply σ Call α).log j = cfg.log j := by
            intro j hj
            simp [Config.log, List.getElem?_set_ne (Ne.symm hj)]
          have hcalli : cfg.call i = some call := by simp [Config.call, hi]
          refine .step ⟨hcall, fun j => ?_⟩ hlt hcalli ?_ hans hself hother (by simp)
          · by_cases hj : j = i
            · subst hj
              rw [hself]
              exact List.suffix_cons _ _
            · exact (hother j hj).symm ▸ List.suffix_refl _
          · rw [hphase, hglog] at hpermits
            rw [hlogi]
            exact hpermits
        · cases hnext
      · cases hnext

/-- **Under a policy, what every permitted step preserves holds after every run**, and every call
has kept to the policy. -/
theorem run_upheld [hreply : ∀ o, Nonempty (Reply o)]
    (hcode : ∀ c, π.protocol.Follows c (S.code c))
    {J : Config Op Reply σ Call α → Prop} {s₀ : σ} (h₀ : J ⟨s₀, []⟩)
    (hstep : ∀ {cfg cfg'}, J cfg → Step π S cfg cfg' → J cfg')
    {evs : List (Event Ch Call Env)} (hrun : S.run ⟨s₀, []⟩ evs = some cfg) :
    π.Upheld cfg ∧ J cfg := by
  have hinv : ∃ gs, Protocol.Tracked π.protocol cfg gs ∧ Logged π gs ∧ J cfg := by
    refine System.run_invariant (C := fun _ _ => True)
      (I := fun cfg => ∃ gs, Protocol.Tracked π.protocol cfg gs ∧ Logged π gs ∧ J cfg)
      ⟨[], Protocol.tracked_nil _ _, fun g hg => (List.not_mem_nil hg).elim, h₀⟩ ?_
      (System.along_true S _ evs) hrun
    rintro cfg₁ ev cfg₂ ⟨gs, htr, hlogged, hJ⟩ - hnext
    obtain ⟨gs', hmove, htr'⟩ := htr.next hcode hnext
    refine ⟨gs', htr', ?_, hstep hJ (step_of_next htr hlogged hnext)⟩
    generalize cfg₂.shared = s₂ at hmove
    cases hmove with
    | env => exact hlogged
    | spawn c =>
        intro g hg
        rcases List.mem_append.mp hg with hg | hg
        · exact hlogged g hg
        · obtain rfl := List.mem_singleton.mp hg
          exact ⟨rfl, kept_nil⟩
    | @step i ch g o s r ph hg hcall hnext hans hst =>
        obtain ⟨hphase, hkept⟩ := hlogged g (List.mem_of_getElem? hg)
        obtain ⟨hpermits, rfl⟩ := hst
        rw [hphase] at hpermits ⊢
        intro g' hg'
        rcases List.mem_or_eq_of_mem_set hg' with hold | rfl
        · exact hlogged g' hold
        · exact ⟨rfl, hkept.cons r hpermits⟩
  obtain ⟨gs, htr, hlogged, hJ⟩ := hinv
  refine ⟨⟨fun {i call} hc => ?_, fun {i call o} hc hnext => ?_, fun {i call a} hc hres => ?_⟩, hJ⟩
  · obtain ⟨th, hth, rfl⟩ := Option.map_eq_some_iff.mp hc
    obtain ⟨g, hg, hgcall, hglog, -⟩ := htr.ghost hth
    have hkept : π.Kept g.call g.log := (hlogged g (List.mem_of_getElem? hg)).2
    rw [hgcall] at hkept
    rw [htr.log hg]
    exact hkept
  · obtain ⟨th, hth, rfl⟩ := Option.map_eq_some_iff.mp hc
    obtain ⟨g, hg, hgcall, hglog, hwalk⟩ := htr.ghost hth
    have hasks : th.prog.next = some o := by simpa [Config.next, hth] using hnext
    cases hp : th.prog with
    | ret a =>
        rw [hp] at hasks
        cases hasks
    | ask o' k =>
        rw [hp] at hasks hwalk
        cases hasks
        obtain ⟨r⟩ := hreply o
        obtain ⟨-, ⟨hpermits, -⟩, -⟩ := hwalk r
        rw [(hlogged g (List.mem_of_getElem? hg)).1] at hpermits
        rwa [htr.log hg]
  · obtain ⟨g, hg, hfinal⟩ := htr.final hres
    rw [(hlogged g (List.mem_of_getElem? hg)).1] at hfinal
    obtain rfl := Option.some.inj ((htr.call hg).symm.trans hc)
    rwa [htr.log hg]

end Runs

end Policy

/-! ### Where a row comes from -/

variable {Row K : Type}

/-- What a caller that may add these rows and make that of a row can leave behind a row's past:
`none` where there was no row yet, and otherwise the latest version. -/
inductive Left (add : Row → Prop) (make : Row → Option Row → Prop) :
    Option (Option Row) → Option Row → Prop
  | add {r : Row} (h : add r) : Left add make none (some r)
  | make {r : Row} {v : Option Row} (h : make r v) : Left add make (some (some r)) v
  | again {past : Option (Option Row)} {r : Row} {v : Option Row} (h : Left add make past (some r))
      (hm : make r v) : Left add make past v

namespace Left

variable {add : Row → Prop} {make : Row → Option Row → Prop} {past : Option (Option Row)}
  {v : Option Row}

theorem mono {add' : Row → Prop} {make' : Row → Option Row → Prop} (h : Left add make past v)
    (hadd : ∀ r, add r → add' r) (hmake : ∀ r v, make r v → make' r v) : Left add' make' past v := by
  induction h with
  | add h => exact .add (hadd _ h)
  | make h => exact .make (hmake _ _ h)
  | again _ hm ih => exact .again ih (hmake _ _ hm)

/-- Nothing comes back from a deletion. -/
theorem not_deleted (h : Left add make past v) : past ≠ some none := by
  induction h with
  | add | make => exact fun hc => by cases hc
  | again _ _ ih => exact ih

/-- The last statement it came from. -/
theorem last (h : Left add make past v) :
    (∃ r, v = some r ∧ past = none ∧ add r) ∨ ∃ r, make r v := by
  cases h with
  | add h => exact .inl ⟨_, rfl, rfl, h⟩
  | make h => exact .inr ⟨_, h⟩
  | again _ hm => exact .inr ⟨_, hm⟩

/-- What holds of every row added, and survives every change, holds of what is left. -/
theorem keeps {P : Row → Prop} (h : Left add make past v) (hadd : ∀ r, add r → P r)
    (hmake : ∀ r r', make r (some r') → P r → P r') (hpast : ∀ r, past = some (some r) → P r)
    {r : Row} (hr : v = some r) : P r := by
  induction h generalizing r with
  | add h => exact Option.some.inj hr ▸ hadd _ h
  | make h =>
      subst hr
      exact hmake _ _ h (hpast _ rfl)
  | again _ hm ih =>
      subst hr
      exact hmake _ _ hm (ih hpast rfl)

/-- A row that was there has led to what is left, in any sense every change respects. -/
theorem leads (le : Row → Row → Prop) (htrans : ∀ {a b c}, le a b → le b c → le a c)
    (hle : ∀ r r', make r (some r') → le r r') (h : Left add make past v) {a b : Row}
    (ha : past = some (some a)) (hb : v = some b) : le a b := by
  induction h generalizing b with
  | add => cases ha
  | make h =>
      cases ha
      subst hb
      exact hle _ _ h
  | again _ hm ih =>
      subst hb
      exact htrans (ih ha rfl) (hle _ _ hm)

/-- What is deleted was there, up to the changes before. -/
theorem deleted (le : Row → Row → Prop) (hrefl : ∀ a, le a a)
    (htrans : ∀ {a b c}, le a b → le b c → le a c) (hle : ∀ r r', make r (some r') → le r r')
    (h : Left add make past v) {a : Row} (ha : past = some (some a)) (hv : v = none) :
    ∃ r, make r none ∧ le a r := by
  subst hv
  cases h with
  | make h =>
      cases ha
      exact ⟨_, h, hrefl _⟩
  | again h hm => exact ⟨_, hm, h.leads le htrans hle ha rfl⟩

end Left

namespace Slot

variable {add : Nat → Row → Prop} {make : Nat → Row → Option Row → Prop} {first : Row → Prop}
  {s s' : Slot Row} {me : Nat}

/-- The latest version, if there is one. -/
def past (s : Slot Row) : Option (Option Row) := s.versions.head?.map (·.row)

theorem past_of_current {r : Row} (h : s.current = some r) : s.past = some (some r) := by
  obtain ⟨x, hx, hrow⟩ := Option.bind_eq_some_iff.mp h
  rw [past, hx, Option.map_some, hrow]

/-- Each version was there from the start, or is what its writer could leave behind the version
before it; and so is what the holder of the row is about to leave. -/
structure Warranted (add : Nat → Row → Prop) (make : Nat → Row → Option Row → Prop)
    (first : Row → Prop) (s : Slot Row) : Prop where
  versions : ∀ {pre post : List (Version Row)} {x : Version Row}, s.versions = pre ++ x :: post →
    (∃ r, first r ∧ x = ⟨none, some r⟩ ∧ post = []) ∨
      ∃ k, x.writer = some k ∧ Left (add k) (make k) (post.head?.map (·.row)) x.row
  lock : ∀ {k : Nat} {v : Option Row}, s.lock = some (k, v) → Left (add k) (make k) s.past v

namespace Warranted

theorem loaded {r : Row} (h : first r) : (Slot.loaded r).Warranted add make first := by
  refine ⟨fun {pre post x} he => ?_, fun hl => by cases hl⟩
  rcases pre with _ | ⟨y, pre⟩
  · cases he
    exact .inl ⟨r, h, rfl, rfl⟩
  · simp [Slot.loaded] at he

theorem fresh {r : Row} (h : add me r) : (Slot.fresh me r).Warranted add make first := by
  refine ⟨fun {pre post x} he => ?_, fun {k v} hl => ?_⟩
  · simp [Slot.fresh] at he
  · cases hl
    exact .add h

theorem commit (h : s.Warranted add make first) (me : Nat) :
    (s.commit me).Warranted add make first := by
  by_cases hown : ∃ v, s.lock = some (me, v)
  · obtain ⟨v, hv⟩ := hown
    rw [commit_of_own hv]
    refine ⟨fun {pre post x} he => ?_, fun hl => by cases hl⟩
    rcases pre with _ | ⟨y, pre⟩
    · obtain ⟨rfl, rfl⟩ := List.cons.inj he
      exact .inr ⟨me, rfl, h.lock hv⟩
    · exact h.versions (List.cons.inj he).2
  · rw [commit_of_not_own fun v hv => hown ⟨v, hv⟩]
    exact h

theorem rollback (h : s.Warranted add make first) (me : Nat) :
    (s.rollback me).Warranted add make first := by
  by_cases hown : ∃ v, s.lock = some (me, v)
  · obtain ⟨v, hv⟩ := hown
    rw [rollback_of_own hv]
    exact ⟨h.versions, fun hl => by cases hl⟩
  · rw [rollback_of_not_own fun v hv => hown ⟨v, hv⟩]
    exact h

theorem hold (h : s.Warranted add make first) {r : Row} {v : Option Row} (hview : s.view me = some r)
    (hm : make me r v) : (s.hold me v).Warranted add make first := by
  refine ⟨h.versions, fun {k w} hl => ?_⟩
  obtain ⟨rfl, rfl⟩ : me = k ∧ v = w := Prod.mk.inj (Option.some.inj hl)
  change Left (add me) (make me) s.past v
  by_cases hown : ∃ u, s.lock = some (me, u)
  · obtain ⟨u, hu⟩ := hown
    rw [view_of_own hu] at hview
    subst hview
    exact .again (h.lock hu) hm
  · have hcur : s.current = some r := by
      rw [← hview]
      cases hlock : s.lock with
      | none => rw [view_of_unlocked hlock]
      | some l =>
          obtain ⟨k, u⟩ := l
          by_cases hk : k = me
          · subst hk
            exact absurd ⟨u, hlock⟩ hown
          · rw [view_of_other hlock hk]
    rw [past_of_current hcur]
    exact .make hm

/-- What a statement leaves of the slot, if the caller may do what the statement does. -/
theorem worked (h : s.Warranted add make first) {o : SqlOp Row}
    (hmake : ∀ r v, o.Makes r v → make me r v) (hw : s.Worked me o s') :
    s'.Warranted add make first := by
  cases hw with
  | same => exact h
  | commit => exact h.commit me
  | rollback => exact h.rollback me
  | hold hv hm => exact h.hold hv (hmake _ _ hm)
  | settled hv hm => exact (h.hold hv (hmake _ _ hm)).commit me

theorem added {o : SqlOp Row} (hadd : ∀ r, o.Inserts r → add me r) (ha : s.Added me o) :
    s.Warranted add make first := by
  obtain ⟨a, ha, rfl | rfl⟩ := ha
  · exact fresh (hadd a ha)
  · exact (fresh (hadd a ha)).commit me

theorem mono {add' : Nat → Row → Prop} {make' : Nat → Row → Option Row → Prop}
    (h : s.Warranted add make first) (hadd : ∀ k r, add k r → add' k r)
    (hmake : ∀ k r v, make k r v → make' k r v) : s.Warranted add' make' first := by
  refine ⟨fun he => ?_, fun hl => (h.lock hl).mono (hadd _) (hmake _)⟩
  rcases h.versions he with hfirst | ⟨k, hk, hleft⟩
  · exact .inl hfirst
  · exact .inr ⟨k, hk, hleft.mono (hadd k) (hmake k)⟩

/-! ### Reading the history of a row -/

/-- The statement behind a version: its writer added the row, or made it of another. -/
theorem written (h : s.Warranted add make first) {x : Version Row} (hx : x ∈ s.versions) :
    (∃ r, first r ∧ x = ⟨none, some r⟩) ∨
      ∃ k, x.writer = some k ∧ ((∃ r, x.row = some r ∧ add k r) ∨ ∃ r, make k r x.row) := by
  obtain ⟨pre, post, he⟩ := List.append_of_mem hx
  rcases h.versions he with ⟨r, hr, rfl, -⟩ | ⟨k, hk, hleft⟩
  · exact .inl ⟨r, hr, rfl⟩
  · rcases hleft.last with ⟨r, hv, -, ha⟩ | ⟨r, hm⟩
    · exact .inr ⟨k, hk, .inl ⟨r, hv, ha⟩⟩
    · exact .inr ⟨k, hk, .inr ⟨r, hm⟩⟩

/-- What holds of the rows from the start and of every row added, and survives every change,
holds of every row there has been. -/
theorem keeps {P : Row → Prop} (h : s.Warranted add make first) (hfirst : ∀ r, first r → P r)
    (hadd : ∀ k r, add k r → P r) (hmake : ∀ k r r', make k r (some r') → P r → P r')
    {x : Version Row} (hx : x ∈ s.versions) {r : Row} (hr : x.row = some r) : P r := by
  obtain ⟨pre, post, he⟩ := List.append_of_mem hx
  clear hx
  induction post generalizing pre x r with
  | nil =>
      rcases h.versions he with ⟨r', hr', rfl, -⟩ | ⟨k, -, hleft⟩
      · cases hr
        exact hfirst _ hr'
      · exact hleft.keeps (hadd k) (hmake k) (fun _ hc => by cases hc) hr
  | cons y post ih =>
      rcases h.versions he with ⟨-, -, -, hnil⟩ | ⟨k, -, hleft⟩
      · cases hnil
      · have he' : s.versions = (pre ++ [x]) ++ y :: post := by rw [he]; simp
        exact hleft.keeps (hadd k) (hmake k) (fun r' hr' => ih (Option.some.inj hr') _ he') hr

/-- Every value of the row led to all the later ones. -/
theorem evolves (le : Row → Row → Prop) (htrans : ∀ {a b c}, le a b → le b c → le a c)
    (hle : ∀ k r r', make k r (some r') → le r r') (h : s.Warranted add make first) :
    s.Evolves le := by
  -- the versions, from the oldest on
  have hpast : ∀ post pre : List (Version Row), s.versions = pre ++ post →
      (post.map (·.row)).Pairwise fun new old => ∃ a, old = some a ∧ ∀ b, new = some b → le a b := by
    intro post
    induction post with
    | nil => exact fun _ _ => List.Pairwise.nil
    | cons x post ih =>
        intro pre he
        have hrest := ih (pre ++ [x]) (by rw [he]; simp)
        refine List.pairwise_cons.mpr ⟨fun old hold => ?_, hrest⟩
        rcases h.versions he with ⟨-, -, -, rfl⟩ | ⟨k, -, hleft⟩
        · cases hold
        · exact leads_all le htrans (hle k) hleft rfl hrest hold
  unfold Evolves values
  cases hl : s.lock with
  | none => exact hpast s.versions [] rfl
  | some l =>
      obtain ⟨k, v⟩ := l
      have hrest := hpast s.versions [] rfl
      refine List.pairwise_cons.mpr ⟨fun old hold => ?_, hrest⟩
      exact leads_all le htrans (hle k) (h.lock hl) rfl hrest hold
where
  /-- The latest of the earlier versions led here, and so did those before it. -/
  leads_all (le : Row → Row → Prop) (htrans : ∀ {a b c}, le a b → le b c → le a c) {k : Nat}
      (hle : ∀ r r', make k r (some r') → le r r') {past : Option (Option Row)} {v : Option Row}
      (hleft : Left (add k) (make k) past v) {earlier : List (Version Row)}
      (he : past = earlier.head?.map (·.row))
      (hrest : (earlier.map (·.row)).Pairwise fun new old =>
        ∃ a, old = some a ∧ ∀ b, new = some b → le a b) {old : Option Row}
      (hold : old ∈ earlier.map (·.row)) : ∃ a, old = some a ∧ ∀ b, v = some b → le a b := by
    rcases earlier with _ | ⟨y, earlier⟩
    · cases hold
    obtain ⟨row, hrow⟩ : ∃ row, y.row = some row := by
      cases hy : y.row with
      | some row => exact ⟨row, rfl⟩
      | none => exact absurd (by rw [he, List.head?_cons, Option.map_some, hy]) hleft.not_deleted
    have hlast : ∀ b, v = some b → le row b := fun b hb =>
      hleft.leads le htrans hle (by rw [he, List.head?_cons, Option.map_some, hrow]) hb
    rw [List.map_cons] at hold hrest
    rcases List.mem_cons.mp hold with rfl | hold
    · exact ⟨row, hrow, hlast⟩
    · obtain ⟨a, ha, hle'⟩ := (List.pairwise_cons.mp hrest).1 old hold
      exact ⟨a, ha, fun b hb => htrans (hle' row hrow) (hlast b hb)⟩

/-- What was there before a deletion, and who deleted what of it. -/
theorem ended (le : Row → Row → Prop) (hrefl : ∀ a, le a a)
    (htrans : ∀ {a b c}, le a b → le b c → le a c)
    (hle : ∀ k r r', make k r (some r') → le r r') (h : s.Warranted add make first) {a : Row}
    {x y : Version Row} {post : List (Version Row)} (he : s.versions = x :: y :: post)
    (hx : x.row = none) (hy : y.row = some a) :
    ∃ k r, x.writer = some k ∧ make k r none ∧ le a r := by
  have he' : s.versions = [] ++ x :: y :: post := he
  rcases h.versions he' with ⟨-, -, -, hnil⟩ | ⟨k, hk, hleft⟩
  · cases hnil
  · obtain ⟨r, hm, hle'⟩ := hleft.deleted le hrefl htrans (hle k)
      (by rw [List.head?_cons, Option.map_some, hy]) hx
    exact ⟨k, r, hk, hm, hle'⟩

end Warranted

end Slot

/-- Every row of the table answers for its history; `rows` were there from the start. -/
def Table.Warranted (add : Nat → Row → Prop) (make : Nat → Row → Option Row → Prop)
    (rows : List Row) (t : Table Row) : Prop :=
  ∀ (d : Nat) (s : Slot Row), t[d]? = some s →
    s.Warranted add make fun r => rows[d]? = some r

namespace Table.Warranted

variable {add : Nat → Row → Prop} {make : Nat → Row → Option Row → Prop} {rows : List Row}
  {t t' : Table Row} {me : Nat}

theorem start (rows : List Row) : Table.Warranted add make rows (rows.map Slot.loaded) := by
  intro d s hs
  rw [List.getElem?_map] at hs
  obtain ⟨r, hr, rfl⟩ := Option.map_eq_some_iff.mp hs
  exact .loaded hr

theorem mono {add' : Nat → Row → Prop} {make' : Nat → Row → Option Row → Prop}
    (h : t.Warranted add make rows) (hadd : ∀ k r, add k r → add' k r)
    (hmake : ∀ k r v, make k r v → make' k r v) : t.Warranted add' make' rows :=
  fun d s hs => (h d s hs).mono hadd hmake

/-- **A statement its caller has the right to keeps the table warranted.** -/
theorem answer (h : t.Warranted add make rows) {o : SqlOp Row} {out : Outcome} {r : o.Reply}
    (hans : SqlOp.answer me o out t = some (t', r)) (hadd : ∀ r, o.Inserts r → add me r)
    (hmake : ∀ r v, o.Makes r v → make me r v) : t'.Warranted add make rows := by
  intro d s' hs'
  have hworked := SqlOp.answer_worked hans
  by_cases hd : d < t.length
  · obtain ⟨s₁, hs₁, hw⟩ := hworked.old (List.getElem?_eq_getElem hd)
    obtain rfl := Option.some.inj (hs₁.symm.trans hs')
    exact (h d _ (List.getElem?_eq_getElem hd)).worked hmake hw
  · exact .added hadd (hworked.new hs' (Nat.le_of_not_lt hd)).2

end Table.Warranted

/-! ### What a table has held -/

/-- This has been committed in slot `d` at some time. -/
def Table.HadAt (t : Table Row) (d : Nat) (r : Row) : Prop :=
  ∃ (s : Slot Row) (x : Version Row), t[d]? = some s ∧ x ∈ s.versions ∧ x.row = some r

/-- The row has been committed at some time. -/
def Table.Had (t : Table Row) (r : Row) : Prop := ∃ d, t.HadAt d r

theorem Table.had_at_of_current {t : Table Row} {d : Nat} {s : Slot Row} {r : Row}
    (hs : t[d]? = some s) (hc : s.current = some r) : t.HadAt d r := by
  obtain ⟨x, hx, hrow⟩ := Option.bind_eq_some_iff.mp hc
  exact ⟨s, x, hs, List.mem_of_mem_head? hx, hrow⟩

theorem Table.had_of_current {t : Table Row} {d : Nat} {s : Slot Row} {r : Row}
    (hs : t[d]? = some s) (hc : s.current = some r) : t.Had r :=
  ⟨d, Table.had_at_of_current hs hc⟩

/-- A committed version is there for good. -/
theorem Table.version_stays {me : Nat} {t t' : Table Row} {o : SqlOp Row} {out : Outcome}
    {reply : o.Reply} (hans : SqlOp.answer me o out t = some (t', reply)) {d : Nat} {s : Slot Row}
    {x : Version Row} (hs : t[d]? = some s) (hx : x ∈ s.versions) :
    ∃ s', t'[d]? = some s' ∧ x ∈ s'.versions := by
  obtain ⟨s', hs', hw⟩ := (SqlOp.answer_worked hans).old hs
  obtain ⟨pre, hpre⟩ := hw.suffix
  exact ⟨s', hs', by rw [hpre]; exact List.mem_append_right _ hx⟩

theorem Table.HadAt.answer {me d : Nat} {t t' : Table Row} {r : Row} (h : t.HadAt d r)
    {o : SqlOp Row} {out : Outcome} {reply : o.Reply}
    (hans : SqlOp.answer me o out t = some (t', reply)) : t'.HadAt d r := by
  obtain ⟨s, x, hs, hx, hrow⟩ := h
  obtain ⟨s', hs', hx'⟩ := Table.version_stays hans hs hx
  exact ⟨s', x, hs', hx', hrow⟩

theorem Table.Had.answer {me : Nat} {t t' : Table Row} {r : Row} (h : t.Had r) {o : SqlOp Row}
    {out : Outcome} {reply : o.Reply} (hans : SqlOp.answer me o out t = some (t', reply)) :
    t'.Had r := by
  obtain ⟨d, hat⟩ := h
  exact ⟨d, hat.answer hans⟩

/-- A pooled `UPDATE` or `DELETE` taken whole holds nothing afterwards, and leaves what others hold. -/
theorem SqlOp.locked_write_pool {me n : Nat} {t t' : Table Row} {p : Row → Bool}
    {f : Row → Option Row} {reply : Reply (.write .pool p f)}
    (hans : SqlOp.answer me (.write .pool p f) (.done n) t = some (t', reply)) {k d : Nat}
    {v : Option Row} (hl : t'.Locked k d v) : k ≠ me ∧ t.Locked k d v := by
  obtain ⟨-, heq⟩ := Option.ite_none_right_eq_some.mp hans
  cases heq
  obtain ⟨s', hs', hlock⟩ := hl
  rw [settle, List.map_map, List.getElem?_map] at hs'
  obtain ⟨s, hs, rfl⟩ := Option.map_eq_some_iff.mp hs'
  have hcommit : ∀ {x : Slot Row}, (x.commit me).lock = some (k, v) →
      k ≠ me ∧ x.lock = some (k, v) := by
    intro x hx
    by_cases hown : ∃ u, x.lock = some (me, u)
    · obtain ⟨u, hu⟩ := hown
      rw [Slot.commit_of_own hu] at hx
      cases hx
    · rw [Slot.commit_of_not_own fun u hu => hown ⟨u, hu⟩] at hx
      exact ⟨fun hk => hown ⟨v, by rw [hx, hk]⟩, hx⟩
  obtain ⟨hk, hx⟩ := hcommit hlock
  rcases s.touch_cases me p f with ⟨he, -⟩ | ⟨r, -, -, he, -⟩
  · rw [he] at hx
    exact ⟨hk, s, hs, hx⟩
  · rw [he] at hx
    exact absurd (Prod.mk.inj (Option.some.inj hx)).1.symm hk

/-- What others hold they hold afterwards. -/
theorem SqlOp.locked_other_pool {me n : Nat} {t t' : Table Row} {p : Row → Bool}
    {f : Row → Option Row} {reply : Reply (.write .pool p f)}
    (hans : SqlOp.answer me (.write .pool p f) (.done n) t = some (t', reply)) {k d : Nat}
    {v : Option Row} (hk : k ≠ me) (hl : t.Locked k d v) : t'.Locked k d v := by
  obtain ⟨hfree, heq⟩ := Option.ite_none_right_eq_some.mp hans
  cases heq
  obtain ⟨s, hs, hlock⟩ := hl
  have hmiss : s.hits me p = false := by
    have hor := List.all_eq_true.mp hfree s (List.mem_of_getElem? hs)
    simpa [Slot.free, hlock, hk] using hor
  have htouch : s.touch me p f = s := by
    rcases s.touch_cases me p f with ⟨he, -⟩ | ⟨r, hv, hp, -⟩
    · exact he
    · rw [Slot.hits, hv, Option.any_some, hp] at hmiss
      cases hmiss
  have hcommit : s.commit me = s :=
    Slot.commit_of_not_own fun u hu => hk (Prod.mk.inj (Option.some.inj (hlock.symm.trans hu))).1
  refine ⟨s, ?_, hlock⟩
  rw [settle, List.map_map, List.getElem?_map, hs, Option.map_some, Function.comp, htouch, hcommit]

/-- What it makes of a committed row nobody else holds is committed. -/
theorem SqlOp.had_write_pool {me n : Nat} {t t' : Table Row} {p : Row → Bool} {f : Row → Option Row}
    {reply : Reply (.write .pool p f)}
    (hans : SqlOp.answer me (.write .pool p f) (.done n) t = some (t', reply))
    (hnone : ∀ d v, ¬ t.Locked me d v) {d : Nat} {s : Slot Row} {r r' : Row} (hs : t[d]? = some s)
    (hc : s.current = some r) (hp : p r = true) (hf : f r = some r') : t'.Had r' := by
  obtain ⟨-, heq⟩ := Option.ite_none_right_eq_some.mp hans
  cases heq
  have hholds : t.Holds me [] := fun d v =>
    ⟨fun hl => absurd hl (hnone d v), fun hm => absurd hm List.not_mem_nil⟩
  have hview : s.view me = some r := by rw [hholds.view hs fun v => List.not_mem_nil, hc]
  have htouch : s.touch me p f = s.hold me (some r') := by
    simp [Slot.touch, hview, hp, hf]
  have hs' : (settle .pool me (t.map (Slot.touch me p f)))[d]? =
      some ((s.touch me p f).commit me) := by
    rw [settle, List.map_map, List.getElem?_map, hs]
    rfl
  refine Table.had_of_current hs' ?_
  rw [htouch, Slot.commit_of_own rfl]
  rfl

end Basis
