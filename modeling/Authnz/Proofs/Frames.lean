/-
What requests leave alone.

The rows of one table, place by place, and the operations that have nothing to do with
it.  While a caller's open transaction holds no row of the table, what it sees of the
table is what is committed; operations on other tables keep both as they are.
-/
import Authnz.Proofs.Routes

namespace Authnz

open Basis

section Rows

variable {α β γ : Type} {T : Relation α}

/-- What `g` shows of the committed record at place `d`. -/
def World.look (g : Record → Option β) (w : World) (d : Nat) : Option β :=
  (w.db[d]?.bind Slot.current).bind g

/-- What `g` shows of the database, caller `me` has not changed. -/
def World.Level (me : Nat) (g : Record → Option β) (w : World) : Prop :=
  ∀ d, (w.db[d]?.bind (Slot.view me)).bind g = w.look g d

/-- The committed row of table `T` at place `d`. -/
def World.row (T : Relation α) (w : World) (d : Nat) : Option α :=
  (w.db[d]?.bind Slot.current).bind T.prj

/-- The same as caller `me` sees it. -/
def World.rowSeen (me : Nat) (T : Relation α) (w : World) (d : Nat) : Option α :=
  (w.db[d]?.bind (Slot.view me)).bind T.prj

/-- Caller `me` has no row of the table in hand. -/
def World.Steady (me : Nat) (T : Relation α) (w : World) : Prop :=
  ∀ d, w.rowSeen me T d = w.row T d

theorem look_map {w : World} {f : α → β} {d : Nat} :
    w.look (fun r => (T.prj r).map f) d = (w.row T d).map f := by
  unfold World.look World.row
  cases w.db[d]?.bind Slot.current <;> rfl

theorem row_of_places (T : Relation α) (w : World) (d : Nat) :
    w.row T d = (w.places[d]?.bind id).bind T.prj := by
  rw [World.row, World.places, List.getElem?_map]
  cases w.db[d]? <;> rfl

theorem rowSeen_of_desk (me : Nat) (T : Relation α) (w : World) (d : Nat) :
    w.rowSeen me T d = ((w.db.desk me).seen[d]?.bind id).bind T.prj := by
  change _ = ((w.db.map (Slot.view me))[d]?.bind id).bind T.prj
  rw [World.rowSeen, List.getElem?_map]
  cases w.db[d]? <;> rfl

theorem look_of_places (g : Record → Option β) (w : World) (d : Nat) :
    w.look g d = (w.places[d]?.bind id).bind g := by
  rw [World.look, World.places, List.getElem?_map]
  cases w.db[d]? <;> rfl

theorem World.Settled.level {me : Nat} {w : World} (h : w.Settled me) (g : Record → Option β) :
    w.Level me g := by
  intro d
  rw [look_of_places, places_eq me, ← h]
  change _ = ((w.db.map (Slot.view me))[d]?.bind id).bind g
  rw [List.getElem?_map]
  cases w.db[d]? <;> rfl

theorem World.Settled.steady {me : Nat} {w : World} (h : w.Settled me) (T : Relation α) :
    w.Steady me T := h.level T.prj

/-- The rows are the database's alone. -/
theorem row_of_db {w w' : World} (h : w'.db = w.db) (d : Nat) : w'.row T d = w.row T d := by
  unfold World.row
  rw [h]

theorem World.Steady.of_db {me : Nat} {w w' : World} (hst : w.Steady me T) (h : w'.db = w.db) :
    w'.Steady me T := by
  intro d
  rw [row_of_db h, World.rowSeen, h]
  exact hst d

theorem World.Settled.of_db {me : Nat} {w w' : World} (hset : w.Settled me) (h : w'.db = w.db) :
    w'.Settled me := by
  rwa [World.Settled, h]

theorem mem_sees_iff {me : Nat} {w : World} {a : α} :
    a ∈ w.sees me T ↔ ∃ d, w.rowSeen me T d = some a := by
  unfold World.sees
  rw [List.mem_filterMap]
  constructor
  · rintro ⟨r, hr, hprj⟩
    obtain ⟨d, hd⟩ := Desk.mem_rows.mp hr
    exact ⟨d, by rw [rowSeen_of_desk, hd]; exact hprj⟩
  · rintro ⟨d, hd⟩
    rw [rowSeen_of_desk] at hd
    obtain ⟨r, hr, hprj⟩ := Option.bind_eq_some_iff.mp hd
    obtain ⟨x, hx, rfl⟩ := Option.bind_eq_some_iff.mp hr
    exact ⟨r, Desk.mem_rows.mpr ⟨d, hx⟩, hprj⟩

theorem row_iff_places {w : World} {d : Nat} {a : α} :
    w.row T d = some a ↔ w.places[d]? = some (some (T.inj a)) := by
  rw [row_of_places]
  constructor
  · intro h
    obtain ⟨r, hr, hprj⟩ := Option.bind_eq_some_iff.mp h
    obtain ⟨x, hx, rfl⟩ := Option.bind_eq_some_iff.mp hr
    rw [hx, T.inj_of_prj hprj]
  · intro h
    rw [h]
    exact T.prj_inj a

theorem mem_rows_iff {w : World} {a : α} : a ∈ w.rows T ↔ ∃ d, w.row T d = some a := by
  unfold World.rows
  rw [List.mem_filterMap]
  constructor
  · rintro ⟨r, hr, hprj⟩
    obtain ⟨s, hs, hc⟩ := List.mem_filterMap.mp hr
    obtain ⟨d, hd⟩ := List.mem_iff_getElem?.mp hs
    exact ⟨d, by rw [World.row, hd, Option.bind_some, hc]; exact hprj⟩
  · rintro ⟨d, hd⟩
    obtain ⟨r, hr, hprj⟩ := Option.bind_eq_some_iff.mp hd
    obtain ⟨s, hs, hc⟩ := Option.bind_eq_some_iff.mp hr
    exact ⟨r, List.mem_filterMap.mpr ⟨s, List.mem_of_getElem? hs, hc⟩, hprj⟩

theorem rows_of_places (T : Relation α) (w : World) :
    w.rows T = (w.places.filterMap id).filterMap T.prj := by
  rw [World.rows, World.places, List.filterMap_map]
  rfl

/-- Filtering the places filters the rows of each table. -/
theorem filter_places {p : Record → Bool} {q : α → Bool} (hq : ∀ a, p (T.inj a) = q a)
    (places : List (Option Record)) :
    ((places.map (Option.filter p)).filterMap id).filterMap T.prj =
      ((places.filterMap id).filterMap T.prj).filter q := by
  induction places with
  | nil => rfl
  | cons x rest ih =>
      cases x with
      | none => exact ih
      | some r =>
          cases hr : T.prj r with
          | none => by_cases hp : p r = true <;> simpa [Option.filter, hp, hr] using ih
          | some a =>
              have hpq : p r = q a := by rw [T.inj_of_prj hr, hq]
              by_cases hp : q a = true <;> simpa [Option.filter, hpq, hp, hr] using ih

theorem rows_of_filter {w w' : World} {p : Record → Bool} {q : α → Bool}
    (hq : ∀ a, p (T.inj a) = q a) (h : w'.places = w.places.map (Option.filter p)) :
    w'.rows T = (w.rows T).filter q := by
  rw [rows_of_places, rows_of_places, h, filter_places hq]

theorem mem_rows_of_place {w : World} {a : α} (h : some (T.inj a) ∈ w.places) : a ∈ w.rows T := by
  rw [rows_of_places]
  exact List.mem_filterMap.mpr ⟨_, List.mem_filterMap.mpr ⟨_, h, rfl⟩, T.prj_inj a⟩

/-- Nobody has a transaction open at the start. -/
theorem settled_of (me : Nat) (rows : List Record) : (World.of rows).Settled me := by
  refine Table.settled_of_idle fun s hs v hv => ?_
  obtain ⟨r, -, rfl⟩ := List.mem_map.mp hs
  cases hv

theorem look_of (g : Record → Option β) (rows : List Record) (d : Nat) :
    (World.of rows).look g d = rows[d]?.bind g := by
  unfold World.look World.of
  rw [List.getElem?_map]
  cases rows[d]? <;> rfl

theorem row_of_iff {rows : List Record} {d : Nat} {a : α} :
    (World.of rows).row T d = some a ↔ rows[d]? = some (T.inj a) := by
  rw [show (World.of rows).row T d = rows[d]?.bind T.prj from look_of T.prj rows d]
  constructor
  · intro h
    obtain ⟨r, hr, hprj⟩ := Option.bind_eq_some_iff.mp h
    rw [hr, T.inj_of_prj hprj]
  · intro h
    rw [h]
    exact T.prj_inj a

/-! ### What a statement on the table does to its rows -/

theorem prj_rewrite_set (q : α → Bool) (f : α → α) (x : Option Record) :
    (Desk.rewrite (T.sel q) (T.set f) x).bind T.prj =
      (x.bind T.prj).map fun a => if q a then f a else a := by
  cases x with
  | none => rfl
  | some r =>
      cases hr : T.prj r with
      | none => rw [rewrite_other hr, Option.bind_some, hr]; rfl
      | some a =>
          obtain rfl := T.inj_of_prj hr
          rw [Option.bind_some, hr, Option.map_some]
          by_cases hq : q a = true
          · rw [Desk.rewrite_hit (by simpa using hq), Relation.set_inj, Option.bind_some, T.prj_inj,
              if_pos hq]
          · rw [Desk.rewrite_miss (by simpa using hq), Option.bind_some, T.prj_inj, if_neg hq]

theorem prj_rewrite_del (q : α → Bool) (x : Option Record) :
    (Desk.rewrite (T.sel q) Relation.del x).bind T.prj = (x.bind T.prj).filter fun a => !q a := by
  cases x with
  | none => rfl
  | some r =>
      cases hr : T.prj r with
      | none => rw [rewrite_other hr, Option.bind_some, hr]; rfl
      | some a =>
          obtain rfl := T.inj_of_prj hr
          rw [Option.bind_some, hr]
          by_cases hq : q a = true
          · rw [Desk.rewrite_hit (by simpa using hq)]
            simp [Relation.del, Option.filter, hq]
          · rw [Desk.rewrite_miss (by simpa using hq), Option.bind_some, T.prj_inj]
            simp [Option.filter, hq]

/-- A statement on another table leaves the row. -/
theorem prj_rewrite_other {U : Relation β} (hU : ∀ b, T.prj (U.inj b) = none) (q : β → Bool)
    {f : Record → Option Record} (hf : ∀ b r, f (U.inj b) = some r → T.prj r = none)
    (x : Option Record) : (Desk.rewrite (U.sel q) f x).bind T.prj = x.bind T.prj := by
  cases x with
  | none => rfl
  | some r =>
      by_cases hq : U.sel q r = true
      · obtain ⟨b, rfl, -⟩ := U.sel_iff.mp hq
        rw [Desk.rewrite_hit hq, Option.bind_some, hU]
        cases hb : f (U.inj b) with
        | none => rfl
        | some r => exact hf b r hb
      · rw [Desk.rewrite_miss (by simpa using hq)]

theorem row_of_other {U : Relation β} {w w' : World} {q : β → Bool} {f : Record → Option Record}
    (hU : ∀ b, T.prj (U.inj b) = none) (hf : ∀ b r, f (U.inj b) = some r → T.prj r = none)
    (h : w'.places = w.places.map (Desk.rewrite (U.sel q) f)) (d : Nat) :
    w'.row T d = w.row T d := by
  rw [row_of_places, row_of_places, h, List.getElem?_map]
  cases w.places[d]? with
  | none => rfl
  | some x => exact prj_rewrite_other hU q hf x

theorem row_of_update {w w' : World} {q : α → Bool} {f : α → α}
    (h : w'.places = w.places.map (Desk.rewrite (T.sel q) (T.set f))) (d : Nat) :
    w'.row T d = (w.row T d).map fun a => if q a then f a else a := by
  rw [row_of_places, row_of_places, h, List.getElem?_map]
  cases w.places[d]? with
  | none => rfl
  | some x => exact prj_rewrite_set q f x

theorem row_of_delete {w w' : World} {q : α → Bool}
    (h : w'.places = w.places.map (Desk.rewrite (T.sel q) Relation.del)) (d : Nat) :
    w'.row T d = (w.row T d).filter fun a => !q a := by
  rw [row_of_places, row_of_places, h, List.getElem?_map]
  cases w.places[d]? with
  | none => rfl
  | some x => exact prj_rewrite_del q x

/-- What a pooled statement makes of what is shown, if the caller had none of it in hand. -/
theorem look_of_pooled {me : Nat} {g : Record → Option β} {w w' : World} {p : Record → Bool}
    {f : Record → Option Record} (hlevel : w.Level me g) {k : Option β → Option β}
    (hk : ∀ x, (Desk.rewrite p f x).bind g = k (x.bind g)) (hnone : k none = none)
    (h : w'.db.desk me = ((w.db.desk me).write p f).settle .pool) (d : Nat) :
    w'.look g d = k (w.look g d) := by
  rw [← hlevel d, look_of_places, places_eq me, h]
  change ((((w.db.map (Slot.view me)).map _)[d]?).bind id).bind g = _
  rw [List.getElem?_map, List.getElem?_map]
  cases w.db[d]? with
  | none => exact hnone.symm
  | some s => exact hk (s.view me)

/-- A place of a list that has got one more. -/
theorem place_of_concat {l : List (Option Record)} {x : Option Record} (d : Nat) :
    (l ++ [x])[d]?.bind id = if d = l.length then x else l[d]?.bind id := by
  by_cases hd : d = l.length
  · rw [if_pos hd, hd, List.getElem?_concat_length]
    rfl
  · rw [if_neg hd]
    rcases Nat.lt_or_gt_of_ne hd with hlt | hgt
    · rw [List.getElem?_append_left hlt]
    · rw [List.getElem?_eq_none, List.getElem?_eq_none]
      · omega
      · rw [List.length_append, List.length_singleton]
        omega

theorem look_of_insert {g : Record → Option β} {w w' : World} {r : Record}
    (h : w'.places = w.places ++ [some r]) (d : Nat) :
    w'.look g d = if d = w.db.length then g r else w.look g d := by
  rw [look_of_places, look_of_places, h, place_of_concat, places_length]
  split
  · rfl
  · rfl

/-- A new record that is not shown changes nothing. -/
theorem look_of_insert_hidden {g : Record → Option β} {w w' : World} {r : Record}
    (h : w'.places = w.places ++ [some r]) (hr : g r = none) (d : Nat) :
    w'.look g d = w.look g d := by
  rw [look_of_insert h]
  by_cases hd : d = w.db.length
  · rw [if_pos hd, hr, hd, World.look, List.getElem?_eq_none (Nat.le_refl _)]
    rfl
  · rw [if_neg hd]

/-- A row inserted within a transaction is in sight, and nothing else has changed. -/
theorem rows_of_insert_tx {me : Nat} {w w' : World} {r : Record}
    (h : w'.db.desk me = (w.db.desk me).insert r) (d : Nat) :
    w'.row T d = w.row T d ∧
      w'.rowSeen me T d = if d = w.db.length then T.prj r else w.rowSeen me T d := by
  have hlen : (w.db.desk me).seen.length = w.db.length := List.length_map _
  have hlen' : (w.db.desk me).committed.length = w.db.length := List.length_map _
  constructor
  · rw [row_of_places, row_of_places, places_eq me, h, places_eq me]
    change (((w.db.desk me).committed ++ [none])[d]?.bind id).bind T.prj = _
    rw [place_of_concat]
    split
    · rename_i hd
      rw [List.getElem?_eq_none (Nat.le_of_eq hd.symm)]
      rfl
    · rfl
  · rw [rowSeen_of_desk, rowSeen_of_desk, h]
    change (((w.db.desk me).seen ++ [some r])[d]?.bind id).bind T.prj = _
    rw [place_of_concat, hlen]
    split
    · rfl
    · rfl

theorem row_of_insert {w w' : World} {r : Record} (h : w'.places = w.places ++ [some r]) (d : Nat) :
    w'.row T d = if d = w.db.length then T.prj r else w.row T d :=
  look_of_insert (g := T.prj) h d

/-! ### Statements that leave what is shown -/

/-- The statement changes nothing of what `g` shows of a record, and adds nothing to it. -/
structure Apart (g : Record → Option γ) (q : SqlOp Record) : Prop where
  makes : ∀ {old : Record} {v : Option Record}, q.Makes old v → v.bind g = g old
  inserts : ∀ {r : Record}, q.Inserts r → g r = none

variable {g : Record → Option γ}

/-- What a statement that spares the row in sight does to a slot, seen through `g`. -/
theorem worked_shown {me : Nat} {q : SqlOp Record} {s s' : Slot Record}
    (h : s.Worked me q s')
    (hq : ∀ {old : Record} {v : Option Record}, s.view me = some old → q.Makes old v →
      v.bind g = g old)
    (hst : (s.view me).bind g = s.current.bind g) :
    (s'.view me).bind g = s'.current.bind g ∧ s'.current.bind g = s.current.bind g := by
  have hhold : ∀ {old : Record} {v : Option Record}, s.view me = some old → q.Makes old v →
      v.bind g = s.current.bind g := by
    intro old v hv hm
    rw [hq hv hm, ← hst, hv]
    rfl
  cases h with
  | same => exact ⟨hst, rfl⟩
  | commit => rw [Slot.view_commit, Slot.current_commit]; exact ⟨rfl, hst⟩
  | rollback => rw [Slot.view_rollback, Slot.current_rollback]; exact ⟨rfl, rfl⟩
  | hold hv hm =>
      rw [Slot.view_of_own rfl, Slot.current_hold]
      exact ⟨hhold hv hm, rfl⟩
  | settled hv hm =>
      rw [Slot.view_commit, Slot.current_commit, Slot.view_of_own rfl]
      exact ⟨rfl, hhold hv hm⟩

/-- **Frame.** A statement that leaves what is shown of the rows in sight, and adds nothing to it,
keeps what is shown, and the caller's hands off it. -/
theorem shown_of_answer {c : Crates} {me : Nat} {o : Op} {ch : Choice} {w w' : World} {r : o.Reply}
    (ho : ∀ q, o.statement = some q →
      (∀ {d : Nat} {s : Slot Record} {old : Record} {v : Option Record}, w.db[d]? = some s →
        s.view me = some old → q.Makes old v → v.bind g = g old) ∧
      ∀ {r : Record}, q.Inserts r → g r = none)
    (h : World.answer c me o ch w = some (w', r)) (hst : w.Level me g) :
    w'.Level me g ∧ ∀ d, w'.look g d = w.look g d := by
  rcases World.answer_db h with heq | ⟨q, out, r', hq, hans⟩
  · unfold World.Level World.look at *
    rw [heq]
    exact ⟨hst, fun _ => rfl⟩
  · obtain ⟨hmakes, hinserts⟩ := ho q hq
    have hw := SqlOp.answer_worked hans
    have hslot : ∀ d, (w'.db[d]?.bind (Slot.view me)).bind g = w'.look g d ∧
        w'.look g d = w.look g d := by
      intro d
      have hstd := hst d
      unfold World.look at *
      cases hd : w.db[d]? with
      | some s =>
          obtain ⟨s', hs', hworked⟩ := hw.old hd
          rw [hs']
          rw [hd] at hstd
          exact worked_shown hworked (hmakes hd) hstd
      | none =>
          cases hd' : w'.db[d]? with
          | none => exact ⟨rfl, rfl⟩
          | some s' =>
              obtain ⟨-, a, ha, hs'⟩ := hw.new hd' (List.getElem?_eq_none_iff.mp hd)
              have hprj := hinserts ha
              rcases hs' with rfl | rfl
              · rw [Option.bind_some, Option.bind_some, Slot.view_of_own rfl, Slot.current_fresh]
                exact ⟨hprj, rfl⟩
              · rw [Option.bind_some, Option.bind_some, Slot.view_commit, Slot.current_commit,
                  Slot.view_of_own rfl]
                exact ⟨rfl, hprj⟩
    exact ⟨fun d => (hslot d).1, fun d => (hslot d).2⟩

/-- The same for a statement that spares every row. -/
theorem Apart.shown {c : Crates} {me : Nat} {o : Op} {ch : Choice} {w w' : World} {r : o.Reply}
    (ho : ∀ q, o.statement = some q → Apart g q) (h : World.answer c me o ch w = some (w', r))
    (hst : w.Level me g) : w'.Level me g ∧ ∀ d, w'.look g d = w.look g d :=
  shown_of_answer (fun q hq => ⟨fun _ _ hm => (ho q hq).makes hm, (ho q hq).inserts⟩) h hst

/-- The same for the rows of a table. -/
theorem Apart.frame {c : Crates} {me : Nat} {o : Op} {ch : Choice} {w w' : World} {r : o.Reply}
    (ho : ∀ q, o.statement = some q → Apart T.prj q) (h : World.answer c me o ch w = some (w', r))
    (hst : w.Steady me T) : w'.Steady me T ∧ ∀ d, w'.row T d = w.row T d :=
  Apart.shown ho h hst

variable {U : Relation β}

theorem apart_set_of {ex : Executor} {p : β → Bool} {f : β → β}
    (hU : ∀ b, g (U.inj (f b)) = g (U.inj b)) : Apart g (.write ex (U.sel p) (U.set f)) := by
  refine ⟨fun {old v} hm => ?_, fun hi => hi.elim⟩
  obtain ⟨b, rfl, -, rfl⟩ := makes_set hm
  exact hU b

theorem apart_set {ex : Executor} {p : β → Bool} {f : β → β} (hU : ∀ b, g (U.inj b) = none) :
    Apart g (.write ex (U.sel p) (U.set f)) := apart_set_of fun b => by rw [hU, hU]

theorem apart_delete {ex : Executor} {p : β → Bool} (hU : ∀ b, g (U.inj b) = none) :
    Apart g (.write ex (U.sel p) Relation.del) := by
  refine ⟨fun {old v} hm => ?_, fun hi => hi.elim⟩
  obtain ⟨hp, rfl⟩ := hm
  obtain ⟨b, rfl, -⟩ := U.sel_iff.mp hp
  exact (hU b).symm

theorem apart_insert {ex : Executor} {mk : Uuid → β} (hU : ∀ b, g (U.inj b) = none) :
    Apart g (.insert ex (fun n => U.inj (mk n)) U.clashes) := by
  refine ⟨fun {old v} hm => hm.elim, fun {r} hi => ?_⟩
  obtain ⟨key, rfl⟩ := hi
  exact hU _

/-- Nothing is shown of the tables every route may write to. -/
structure Elsewhere (g : Record → Option γ) : Prop where
  sessions : ∀ s, g (.session s) = none
  refresh_tokens : ∀ t, g (.refresh_token t) = none
  password_resets : ∀ p, g (.password_reset p) = none
  outbox : ∀ e, g (.event e) = none

theorem users_elsewhere : Elsewhere users.prj :=
  ⟨fun _ => rfl, fun _ => rfl, fun _ => rfl, fun _ => rfl⟩

theorem passkeys_elsewhere : Elsewhere passkey_credentials.prj :=
  ⟨fun _ => rfl, fun _ => rfl, fun _ => rfl, fun _ => rfl⟩

theorem Plain.apart (hT : Elsewhere g) {o : Op} (h : Plain o) {q : SqlOp Record}
    (hq : o.statement = some q) : Apart g q := by
  cases h with
  | quiet h hc => cases o <;> first | exact h.elim | cases hq
  | begin | commit | rollback | select p =>
      cases hq
      exact ⟨fun hm => hm.elim, fun hi => hi.elim⟩
  | session_insert new =>
      cases hq
      exact apart_insert hT.sessions
  | session_delete p =>
      cases hq
      exact apart_delete hT.sessions
  | token_revoke p =>
      cases hq
      exact apart_set hT.refresh_tokens
  | token_delete ex p =>
      cases hq
      exact apart_delete hT.refresh_tokens
  | reset_insert mk =>
      cases hq
      exact apart_insert hT.password_resets
  | reset_spend p =>
      cases hq
      exact apart_set hT.password_resets
  | event_insert e =>
      cases hq
      exact apart_insert hT.outbox

/-- Nor of the tables a route may have to itself. -/
theorem Request.special_apart {Reg Cred : Type} {req : Request Reg Cred} {o : Op}
    (husers : ∀ u, g (.user u) = none) (htokens : ∀ t, g (.refresh_token t) = none)
    (hpasskeys : ∀ k, g (.passkey_credential k) = none) (h : req.special o) {q : SqlOp Record}
    (hq : o.statement = some q) : Apart g q := by
  cases req with
  | register req =>
      obtain ⟨mk, rfl⟩ := h
      cases hq
      exact apart_insert husers
  | confirm_password_reset payload | change_password cookie req params =>
      cases h <;> cases hq <;> exact apart_set husers
  | refresh cmd | jwt cookie =>
      obtain ⟨ex, r, rfl⟩ := h
      cases hq
      exact apart_insert htokens
  | update_user cookie id dto =>
      obtain ⟨id, dto, rfl⟩ := h
      cases hq
      exact apart_set husers
  | confirm link params | confirm_token token nonce params =>
      obtain ⟨id, rfl⟩ := h
      cases hq
      exact apart_set husers
  | passkey_register_finish cookie label credential =>
      obtain ⟨mk, rfl⟩ := h
      cases hq
      exact apart_insert hpasskeys
  | passkey_remove cookie row_id =>
      obtain ⟨p, rfl⟩ := h
      cases hq
      exact apart_delete hpasskeys
  | passkey_login_start username | passkey_login_finish username credential params =>
      cases h with
      | ceremony hc => cases o <;> first | exact hc.elim | cases hq
      | counter p data now =>
          cases hq
          exact apart_set hpasskeys
  | _ => exact h.elim

end Rows

end Authnz
