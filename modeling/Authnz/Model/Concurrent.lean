/-
Requests in progress at the same time.

When other requests may come in between, a writing statement is no longer one step:
`Op.split` carries each operation out statement part by statement part, and a
`service` runs any number of calls that way over one `World`.
-/
import Authnz.Basis.Effects
import Authnz.Model.World

namespace Authnz

open Basis

/-- A part of a statement, as an operation of the service. -/
def sql_part (o : SqlOp Record) : Prog Op Op.Reply o.Reply := ask (.sql o)

/-- The steps an operation takes when other requests may come in between. -/
def Op.split : (o : Op) → Handler o.Reply
  | .sql o => o.split.interp sql_part
  | o => ask o

/-- The calls `code` describes, all working on one `World`. -/
def service {Call α : Type} (c : Crates) (code : Call → Handler α) :
    System Op Op.Reply Choice World Call Expiry α where
  answer := World.answer c
  code call := (code call).interp Op.split
  move := World.expire

namespace World

/-! ### The parts of a statement, on the whole state -/

variable {c : Crates} {me : Nat} {ch : Choice} {w w' : World}

theorem answer_begin {r : Op.Reply (.sql .begin)}
    (h : answer c me (.sql .begin) ch w = some (w', r)) : w' = w := by
  obtain ⟨out, -, hans, hw⟩ := answer_sql h
  rw [hw, SqlOp.answer_begin hans]

theorem answer_select {p : Record → Bool} {r : Op.Reply (.sql (.select p))}
    (h : answer c me (.sql (.select p)) ch w = some (w', r)) :
    w' = w ∧ (r = Except.ok ((w.db.filterMap (Slot.view me)).filter p) ∨
      r = Except.error .other) := by
  obtain ⟨out, -, hans, hw⟩ := answer_sql h
  obtain ⟨hdb, hr⟩ := SqlOp.answer_select hans
  exact ⟨by rw [hw, hdb], hr⟩

theorem answer_scan {p : Record → Bool} {r : Op.Reply (.sql (.scan p))}
    (h : answer c me (.sql (.scan p)) ch w = some (w', r)) :
    w' = w ∧ (r = Except.ok (SqlOp.matching me p w.db) ∨ r = Except.error .other) := by
  obtain ⟨out, -, hans, hw⟩ := answer_sql h
  obtain ⟨hdb, hr⟩ := SqlOp.answer_scan hans
  exact ⟨by rw [hw, hdb], hr⟩

theorem answer_commit {r : Op.Reply (.sql .commit)}
    (h : answer c me (.sql .commit) ch w = some (w', r)) :
    w'.db = w.db.map (Slot.commit me) ∧ r = Except.ok () ∨
      w'.db = w.db.map (Slot.rollback me) ∧ r = Except.error .other := by
  obtain ⟨out, -, hans, -⟩ := answer_sql h
  exact SqlOp.answer_commit hans

theorem answer_rollback {r : Op.Reply (.sql .rollback)}
    (h : answer c me (.sql .rollback) ch w = some (w', r)) :
    w'.db = w.db.map (Slot.rollback me) := by
  obtain ⟨out, -, hans, -⟩ := answer_sql h
  exact SqlOp.answer_rollback hans

theorem answer_visit {i : Nat} {p : Record → Bool} {f : Record → Option Record}
    {r : Op.Reply (.sql (.visit i p f))}
    (h : answer c me (.sql (.visit i p f)) ch w = some (w', r)) :
    (w'.db = w.db ∧ (r = Except.error .other ∨ r = Except.ok [] ∧
        ∀ s, w.db[i]? = some s → s.free me = true ∧ s.hits me p = false)) ∨
      ∃ s a, w.db[i]? = some s ∧ s.free me = true ∧ s.view me = some a ∧ p a = true ∧
        w'.db = w.db.set i (s.hold me (f a)) ∧ r = Except.ok [(f a).getD a] := by
  obtain ⟨out, -, hans, -⟩ := answer_sql h
  exact SqlOp.answer_visit hans

theorem answer_insert {mk : Nat → Record} {clash : Record → Record → Bool}
    {r : Op.Reply (.sql (.insert .tx mk clash))}
    (h : answer c me (.sql (.insert .tx mk clash)) ch w = some (w', r)) :
    (w'.db = w.db ∧ ∃ e, r = Except.error e) ∨
      ∃ key, outcome ch = some (.done key) ∧
        SqlOp.duplicate me (clash (mk key)) w.db = false ∧
        SqlOp.contended me (clash (mk key)) w.db = false ∧
        w'.db = w.db ++ [Slot.fresh me (mk key)] ∧ r = Except.ok (mk key) := by
  obtain ⟨out, hout, hans, -⟩ := answer_sql h
  rcases SqlOp.answer_insert hans with hno | ⟨key, rfl, hdup, hcon, hdb, hr⟩
  · exact .inl hno
  · exact .inr ⟨key, hout, hdup, hcon, hdb, hr⟩

/-! The same, by the reply. -/

theorem answer_scanned {p : Record → Bool} {is : List Nat}
    (h : answer c me (.sql (.scan p)) ch w = some (w', Except.ok is)) :
    w' = w ∧ is = SqlOp.matching me p w.db := by
  obtain ⟨rfl, hr | hr⟩ := answer_scan h
  · exact ⟨rfl, Except.ok.inj hr⟩
  · cases hr

theorem answer_committed (h : answer c me (.sql .commit) ch w = some (w', Except.ok ())) :
    w'.db = w.db.map (Slot.commit me) := by
  rcases answer_commit h with ⟨hdb, -⟩ | ⟨-, hr⟩
  · exact hdb
  · cases hr

theorem answer_commit_failed {e : DbError}
    (h : answer c me (.sql .commit) ch w = some (w', Except.error e)) :
    w'.db = w.db.map (Slot.rollback me) := by
  rcases answer_commit h with ⟨-, hr⟩ | ⟨hdb, -⟩
  · cases hr
  · exact hdb

theorem answer_visit_failed {i : Nat} {p : Record → Bool} {f : Record → Option Record}
    {e : DbError} (h : answer c me (.sql (.visit i p f)) ch w = some (w', Except.error e)) :
    w'.db = w.db := by
  rcases answer_visit h with ⟨hdb, -⟩ | ⟨s, a, -, -, -, -, -, hr⟩
  · exact hdb
  · cases hr

theorem answer_insert_failed {mk : Nat → Record} {clash : Record → Record → Bool} {e : DbError}
    (h : answer c me (.sql (.insert .tx mk clash)) ch w = some (w', Except.error e)) :
    w'.db = w.db := by
  rcases answer_insert h with ⟨hdb, -⟩ | ⟨key, -, -, -, -, hr⟩
  · exact hdb
  · cases hr

/-- The operations a program asks for once its statements are taken apart, updates through the
user repository aside. -/
inductive Part : Op → Prop
  | sql {o : SqlOp Record} (h : o.Part) : Part (.sql o)
  | quiet {o : Op} (h : Quiet o) : Part o

theorem Part.effect {o : Op} (ho : Part o) {r : o.Reply}
    (h : World.answer c me o ch w = some (w', r)) : Effect me w.db w'.db := by
  cases ho with
  | sql hp =>
      obtain ⟨out, -, hans, -⟩ := answer_sql h
      exact hp.effect hans
  | quiet hq =>
      rw [answer_quiet hq h]
      exact .none

/-- Only a commit adds versions. -/
theorem Part.versions {o : Op} (ho : Part o) {r : o.Reply}
    (h : World.answer c me o ch w = some (w', r)) :
    (o = .sql .commit ∧ w'.db = w.db.map (Slot.commit me)) ∨
      ∀ {d : Nat} {s' : Slot Record}, w'.db[d]? = some s' →
        s'.versions = [] ∨ ∃ s, w.db[d]? = some s ∧ s'.versions = s.versions := by
  cases ho with
  | sql hp =>
      obtain ⟨out, -, hans, -⟩ := answer_sql h
      rcases hp.versions hans with ⟨rfl, hdb⟩ | hv
      · exact .inl ⟨rfl, hdb⟩
      · exact .inr hv
  | quiet hq =>
      rw [answer_quiet hq h]
      exact .inr fun hs => .inr ⟨_, hs, rfl⟩

/-- A version was there before, or the caller has held it and commits. -/
theorem Part.version_cases {o : Op} (ho : Part o) {r : o.Reply}
    (h : World.answer c me o ch w = some (w', r)) {d : Nat} {s' : Slot Record}
    (hs' : w'.db[d]? = some s') {x : Version Record} (hx : x ∈ s'.versions) :
    (∃ s, w.db[d]? = some s ∧ x ∈ s.versions) ∨ o = .sql .commit ∧
      ∃ s v, w.db[d]? = some s ∧ s.lock = some (me, v) ∧ x = ⟨some me, v⟩ := by
  rcases ho.versions h with ⟨rfl, hdb⟩ | hold
  · rw [hdb, List.getElem?_map] at hs'
    obtain ⟨s, hs, rfl⟩ := Option.map_eq_some_iff.mp hs'
    rcases (Slot.Turn.commit : s.Turn me (s.commit me)).versions with heq | ⟨v, hl, heq⟩
    · exact .inl ⟨s, hs, by rwa [heq] at hx⟩
    · rw [heq] at hx
      rcases List.mem_cons.mp hx with rfl | hx
      · exact .inr ⟨rfl, s, v, hs, hl, rfl⟩
      · exact .inl ⟨s, hs, hx⟩
  · rcases hold hs' with hnil | ⟨s, hs, heq⟩
    · rw [hnil] at hx
      cases hx
    · exact .inl ⟨s, hs, by rwa [heq] at hx⟩

/-! ### The same parts, when nothing is in the way -/

theorem scan_goes {p : Record → Bool} {is : List Nat} (h : SqlOp.matching me p w.db = is) :
    World.answer c me (.sql (.scan p)) .go w = some (w, Except.ok is) := by
  subst h
  rfl

theorem now_goes (t : Time) (w : World) : World.answer c me .now (.time t) w = some (w, t) := rfl

theorem bcrypt_hash_goes (password : String) (salt : Nat) (w : World) :
    World.answer c me (.bcrypt_hash password) (.number salt) w =
      some (w, Except.ok (c.bcrypt_hash password salt)) := rfl

theorem begin_goes (w : World) :
    World.answer c me (.sql .begin) .go w = some (w, Except.ok ()) := rfl

theorem commit_goes (w : World) : World.answer c me (.sql .commit) .go w =
    some ({ w with db := w.db.map (Slot.commit me) }, Except.ok ()) := rfl

theorem rollback_goes (w : World) : World.answer c me (.sql .rollback) .go w =
    some ({ w with db := w.db.map (Slot.rollback me) }, ()) := rfl

theorem visit_goes {i : Nat} {p : Record → Bool} {f : Record → Option Record} {s : Slot Record}
    {a : Record} (hs : w.db[i]? = some s) (hlock : s.lock = none) (hc : s.current = some a)
    (hp : p a = true) :
    World.answer c me (.sql (.visit i p f)) .go w =
      some ({ w with db := w.db.set i (s.hold me (f a)) }, Except.ok [(f a).getD a]) := by
  have hfree : s.free me = true := Slot.free_iff.mpr (.inl hlock)
  have hv : s.view me = some a := by rw [Slot.view_of_unlocked hlock, hc]
  have hdb : SqlOp.answer me (.visit i p f) (.done 0) w.db =
      some (w.db.set i (s.hold me (f a)), Except.ok [(f a).getD a]) := by
    simp only [SqlOp.answer, hs, hfree, if_true, Slot.touch, Slot.affected, hv, hp]
    rfl
  change answerSql me (.visit i p f) .go w = _
  simp only [answerSql, outcome, hdb]
  rfl

end World

/-- No call is about to carry out an operation `p` accepts. -/
def nobody_about {Call α : Type} (cfg : Config Op Op.Reply World Call α)
    (p : Call → Op → Bool) : Bool :=
  cfg.threads.all fun th => match th.prog.next with
    | some o => !p th.call o
    | none => true

theorem nobody_about_iff {Call α : Type} {cfg : Config Op Op.Reply World Call α}
    {p : Call → Op → Bool} : nobody_about cfg p = true ↔
      ∀ th ∈ cfg.threads, ∀ o, th.prog.next = some o → p th.call o = false := by
  unfold nobody_about
  rw [List.all_eq_true]
  refine forall₂_congr fun th _ => ?_
  cases th.prog.next with
  | none => simp
  | some o => simp

/-- The tokens a call has drawn so far. -/
def drawn_tokens (log : List ((o : Op) × o.Reply)) : List String :=
  log.filterMap fun
    | ⟨.fill _, bytes⟩ => some (base64url bytes)
    | _ => none

theorem drawn_tokens_cons_fill (n : Nat) (bytes : List UInt8) (log : List ((o : Op) × o.Reply)) :
    drawn_tokens (⟨.fill n, bytes⟩ :: log) = base64url bytes :: drawn_tokens log := rfl

/-- What a call has drawn stays drawn. -/
theorem mem_drawn_tokens_cons {s : String} {log : List ((o : Op) × o.Reply)}
    (h : s ∈ drawn_tokens log) (e : (o : Op) × o.Reply) : s ∈ drawn_tokens (e :: log) := by
  obtain ⟨a, ha, hs⟩ := List.mem_filterMap.mp h
  exact List.mem_filterMap.mpr ⟨a, List.mem_cons_of_mem e ha, hs⟩

end Authnz
