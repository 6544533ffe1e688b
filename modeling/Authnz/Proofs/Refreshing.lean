/-
A refresh is all or nothing.

`RefreshPlan` says for one call what the clock shows at the check of the expiry, which
bytes are drawn, whether the repository has a copy of the user to serve, and which of
the steps fail.  Every plan settles how the call ends: it returns a pair exactly if
the presented token is good and no step fails, and then one row has taken the place of
another; otherwise the tables are as they were, and the same token is good for the
next call.
-/
import Mathlib.Data.List.Nodup
import Authnz.Proofs.Tokens
import Authnz.Proofs.Accounts
import Authnz.Proofs.ChangeHandler

namespace Authnz

open Basis

/-- The steps of `refresh` that may fail. -/
inductive RefreshStep where
  | begin
  | select
  | lookup
  | delete
  | sign
  | insert
  | commit
  deriving DecidableEq

def Op.refresh_step : Op → Option RefreshStep
  | .sql .begin => some .begin
  | .sql (.select _) => some .select
  | .retrieve _ => some .lookup
  | .sql (.write _ _ _) => some .delete
  | .sign _ _ => some .sign
  | .sql (.insert _ _ _) => some .insert
  | .sql .commit => some .commit
  | _ => none

/-- How the outside meets one call of `refresh`. -/
structure RefreshPlan where
  fails : RefreshStep → Bool
  /-- The clock at the check of the expiry. -/
  now : Time
  /-- The draw for the new token. -/
  bytes : List UInt8
  drawn : bytes.length = 32
  /-- The repository serves the copy it has, if it has one. -/
  cached : Bool

/-- The repository finds this user, under the plan. -/
def RefreshPlan.finds (P : RefreshPlan) (w : World) (id : Uuid) : Bool :=
  P.cached && (w.user_cache id).isSome || (w.load id).isSome

/-- The runs that go by the plan.  The check of the expiry is the one reading of the clock before
the call has written anything. -/
structure RefreshPlan.admits (P : RefreshPlan) (me : Nat) (w : World) (o : Op) (ch : Choice) :
    Prop where
  fault : ∀ s, o.refresh_step = some s → (ch = .fail ↔ P.fails s = true)
  clock : o = .now → w.Settled me → ch = .time P.now
  draw : ∀ n, o = .fill n → ch = .bytes P.bytes
  copy : ∀ id, o = .retrieve id → ch ≠ .fail →
    (ch = .cached ↔ (P.cached && (w.user_cache id).isSome) = true)

/-- What it takes for the call to go through: the presented token is that of row `t`, the row is
good, its user is there, and no step fails. -/
structure RefreshPlan.Passes (P : RefreshPlan) (c : Crates) (w : World) (cmd : RefreshCmd)
    (t : RefreshToken) : Prop where
  nonempty : trim cmd.refresh_token ≠ ""
  found : t ∈ w.rows refresh_tokens
  hash : t.token_hash = hash_token c (trim cmd.refresh_token)
  live : t.revoked = some false
  unexpired : P.now ≤ t.expires_at
  user : P.finds w t.user_id = true
  steps : ∀ s, P.fails s = false
  /-- The unique index on the hashes has room for the new token, once `t` is gone. -/
  room : ∀ t' ∈ w.rows refresh_tokens, t'.token_hash = hash_token c (base64url P.bytes) → t' = t

/-! ### The steps, each by what the plan says of it -/

section Steps

variable {c : Crates} {me : Nat} {P : RefreshPlan} {w : World} {α ε : Type} {err : DbError → ε}
  {T : Relation α} {N : Prop}

/-- A step the plan lets work does not fail. -/
theorem works_by_plan {s : RefreshStep} {o : Op} (hs : P.fails s = false)
    (ho : o.refresh_step = some s) : ¬ P.admits me w o .fail := by
  intro h
  rw [(h.fault s ho).mp rfl] at hs
  cases hs

theorem planned_begin {Q : World → Unit → Prop} (hQ : P.fails .begin = false → Q w ())
    (hN : P.fails .begin = true → N) :
    EndsE c me (P.admits me) (attempt err begin_tx) w Q fun _ _ => N := by
  cases hf : P.fails .begin with
  | false => exact endsE_begin (hQ hf) fun _ hno => absurd hno (works_by_plan hf rfl)
  | true =>
      refine endsE_attempt (ends_ask fun ch w' r hch hans => ?_)
      obtain rfl := (hch.fault _ rfl).mpr hf
      cases hans
      exact hN hf

theorem planned_select {q : α → Bool} {Q : World → List α → Prop}
    (hQ : P.fails .select = false → Q w ((w.sees me T).filter q))
    (hN : P.fails .select = true → N) :
    EndsE c me (P.admits me) (attempt err (select_from T q)) w Q fun _ _ => N := by
  cases hf : P.fails .select with
  | false => exact endsE_select (hQ hf) fun _ hno => absurd hno (works_by_plan hf rfl)
  | true =>
      exact endsE_select_fails (fun ch hch => (hch.fault _ rfl).mpr hf) fun _ => hN hf

theorem planned_delete {q : α → Bool} {Q : World → List α → Prop}
    (hQ : P.fails .delete = false → ∀ w', w' = { w with db := w'.db } →
      w'.db.desk me = (w.db.desk me).write (T.sel q) Relation.del →
      Q w' ((w.sees me T).filter q))
    (hN : P.fails .delete = true → N) :
    EndsE c me (P.admits me) (attempt err (delete_from T .tx q)) w Q fun _ _ => N := by
  cases hf : P.fails .delete with
  | false => exact endsE_delete (hQ hf) fun _ hno => absurd hno (works_by_plan hf rfl)
  | true =>
      exact endsE_write_fails (fun ch hch => (hch.fault _ rfl).mpr hf) fun _ => hN hf

theorem planned_insert {mk : Uuid → α} {Q : World → α → Prop}
    (hQ : P.fails .insert = false → ∀ key w', w' = { w with db := w'.db } →
      (∀ a ∈ w.sees me T, T.clash (mk key) a = false) →
      w'.db.desk me = (w.db.desk me).insert (T.inj (mk key)) → Q w' (mk key))
    (hN : P.fails .insert = true → N)
    (hdup : ∀ key, (∃ a ∈ w.sees me T, T.clash (mk key) a = true) → N) :
    EndsE c me (P.admits me) (attempt err (insert_into T .tx mk)) w Q fun _ _ => N := by
  cases hf : P.fails .insert with
  | false => exact endsE_insert (hQ hf) hdup fun hno => absurd hno (works_by_plan hf rfl)
  | true =>
      refine endsE_attempt (ends_bind (ends_ask fun ch w' r hch hans => ?_))
      obtain rfl := (hch.fault _ rfl).mpr hf
      cases hans
      exact ends_ret (hN hf)

theorem planned_commit {Q : World → Unit → Prop}
    (hQ : P.fails .commit = false → ∀ w', Q w' ()) (hN : P.fails .commit = true → N) :
    EndsE c me (P.admits me) (attempt err commit_tx) w Q fun _ _ => N := by
  cases hf : P.fails .commit with
  | false =>
      exact endsE_commit (fun w' _ _ => hQ hf w') fun _ _ _ _ hno => absurd hno (works_by_plan hf rfl)
  | true =>
      refine endsE_attempt (ends_ask fun ch w' r hch hans => ?_)
      obtain rfl := (hch.fault _ rfl).mpr hf
      cases hans
      exact hN hf

theorem planned_sign {sub : Uuid} {aud : List String} {err : String → ε} {Q : World → String → Prop}
    (hQ : P.fails .sign = false → ∀ token, Q w token) (hN : P.fails .sign = true → N) :
    EndsE c me (P.admits me) (attempt err (ask (.sign sub aud))) w Q fun _ _ => N := by
  refine endsE_attempt (ends_ask fun ch w' r hch hans => ?_)
  cases ch with
  | text token =>
      cases hans
      refine hQ (Bool.eq_false_iff.mpr fun hf => ?_) token
      cases (hch.fault _ rfl).mpr hf
  | fail =>
      cases hans
      exact hN ((hch.fault _ rfl).mp rfl)
  | _ => cases hans

theorem planned_lookup {id : Uuid} {err : ApiError → ε} {Q : World → UserResponse → Prop}
    (hQ : P.fails .lookup = false → P.finds w id = true →
      ∀ w' u, w'.db = w.db → u.id = id → Q w' u)
    (hN : P.fails .lookup = true ∨ P.finds w id = false → N) :
    EndsE c me (P.admits me) (attempt err (ask (.retrieve id))) w Q fun _ _ => N := by
  refine endsE_attempt (ends_ask fun ch w' r hch hans => ?_)
  have hdb : w'.db = w.db := World.answer_quiet (show World.Quiet (.retrieve id) from trivial) hans
  have hid := (World.answer_retrieve hans).2
  change World.answerRetrieve id ch w = some (w', r) at hans
  by_cases hfail : ch = .fail
  · subst hfail
    cases hans
    exact hN (.inl ((hch.fault _ rfl).mp rfl))
  have hf : P.fails .lookup = false :=
    Bool.eq_false_iff.mpr fun hf => hfail ((hch.fault _ rfl).mpr hf)
  have hcopy := hch.copy id rfl hfail
  cases ch with
  | cached =>
      obtain ⟨u, hu, heq⟩ := Option.map_eq_some_iff.mp hans
      cases heq
      refine hQ hf ?_ _ u.1 hdb u.2
      rw [RefreshPlan.finds, hcopy.mp rfl, Bool.true_or]
  | go =>
      have hno : (P.cached && (w.user_cache id).isSome) = false :=
        Bool.eq_false_iff.mpr fun hc => nomatch hcopy.mpr hc
      unfold World.answerRetrieve at hans
      cases hload : w.load id with
      | none =>
          simp only [hload] at hans
          cases hans
          refine hN (.inr ?_)
          rw [RefreshPlan.finds, hno, hload]
          rfl
      | some u =>
          simp only [hload] at hans
          cases hans
          refine hQ hf ?_ _ u.1 hdb u.2
          rw [RefreshPlan.finds, hno, hload]
          rfl
  | fail => exact absurd rfl hfail
  | _ => cases hans

theorem planned_now {Q : World → Time → Prop} (hset : w.Settled me) (hQ : Q w P.now) :
    Ends c me (P.admits me) utc_now w Q := by
  refine ends_ask fun ch w' r hch hans => ?_
  obtain ⟨hr, rfl⟩ := World.answer_now hans
  have hnow := hch.clock rfl hset
  rw [hr] at hnow
  cases hnow
  exact hQ

theorem planned_draw {Q : World → String → Prop} (hQ : Q w (base64url P.bytes)) :
    Ends c me (P.admits me) generate_raw_token w Q := by
  refine ends_bind (ends_ask fun ch w' r hch hans => ends_ret ?_)
  obtain ⟨hr, rfl⟩ := World.answer_fill hans
  have hdraw := hch.draw 32 rfl
  rw [hr] at hdraw
  cases hdraw
  exact hQ

end Steps

section Walk

variable {c : Crates} {me : Nat} {P : RefreshPlan} {w w' : World} {jwt_svc : JwtService} {N : Prop}

/-- What the caller sees of a table after deleting from it. -/
theorem sees_of_delete {α : Type} {T : Relation α} {q : α → Bool}
    (h : w'.db.desk me = (w.db.desk me).write (T.sel q) Relation.del) :
    w'.sees me T = (w.sees me T).filter fun a => !q a := by
  unfold World.sees Desk.rows
  rw [h]
  simp only [Desk.write]
  induction (w.db.desk me).seen with
  | nil => rfl
  | cons x rest ih =>
      rw [List.map_cons]
      cases x with
      | none =>
          rw [Desk.rewrite_none, List.reduceOption_cons_of_none, List.reduceOption_cons_of_none]
          exact ih
      | some r =>
          rw [List.reduceOption_cons_of_some]
          cases hr : T.prj r with
          | none =>
              rw [rewrite_other hr, List.reduceOption_cons_of_some, List.filterMap_cons_none hr,
                List.filterMap_cons_none hr]
              exact ih
          | some a =>
              have hsel : T.sel q r = q a := by rw [T.inj_of_prj hr, T.sel_inj]
              rw [List.filterMap_cons_some hr]
              by_cases hq : q a = true
              · rw [Desk.rewrite_hit (hsel.trans hq), List.filter_cons_of_neg (by simp [hq])]
                exact ih
              · rw [Desk.rewrite_miss (hsel.trans (Bool.eq_false_iff.mpr hq)),
                  List.filter_cons_of_pos (by simp [hq]), List.reduceOption_cons_of_some,
                  List.filterMap_cons_some hr, ih]

theorem planned_issue {user_id : Uuid} {issuer : String} {Q : World → JwtResult → Prop}
    (hQ : P.fails .sign = false → P.fails .insert = false →
      (∀ a ∈ w.sees me refresh_tokens,
        a.token_hash ≠ hash_token jwt_svc.crates (base64url P.bytes)) →
      ∀ w' res, res.refresh_token = base64url P.bytes → Q w' res)
    (hsign : P.fails .sign = true → N) (hinsert : P.fails .insert = true → N)
    (hroom : (∃ a ∈ w.sees me refresh_tokens,
      a.token_hash = hash_token jwt_svc.crates (base64url P.bytes)) → N) :
    EndsE c me (P.admits me) (jwt_svc.issue_token_pair_with .tx user_id issuer) w Q
      fun _ _ => N := by
  refine endsE_bind (planned_sign (fun hs token => ?_) hsign)
  refine endsE_bind (endsE_lift (planned_draw ?_))
  refine endsE_bind (endsE_lift (ends_now fun t₁ => ?_))
  refine endsE_bind (endsE_lift (ends_now fun t₂ => ?_))
  refine endsE_bind (planned_insert (fun hi key w' _ hfree _ => endsE_ret ?_) hinsert ?_)
  · refine hQ hs hi (fun a ha heq => ?_) w' _ rfl
    have hclash : (hash_token jwt_svc.crates (base64url P.bytes) == a.token_hash) = false :=
      hfree a ha
    rw [heq, beq_self_eq_true] at hclash
    cases hclash
  · intro key hpost
    obtain ⟨a, ha, hclash⟩ := hpost
    have heq : (hash_token jwt_svc.crates (base64url P.bytes) == a.token_hash) = true := hclash
    exact hroom ⟨a, ha, (beq_iff_eq.mp heq).symm⟩

/-- How a call ends is settled by the plan. -/
theorem refresh_by_plan (hset : w.Settled me)
    (hkeys : ((w.rows refresh_tokens).map (·.token_hash)).Nodup) (cmd : RefreshCmd) :
    EndsE c me (P.admits me) (jwt_svc.refresh cmd) w
      (fun _ res => (∃ t, P.Passes jwt_svc.crates w cmd t) ∧ res.refresh_token = base64url P.bytes)
      (fun _ _ => ¬ ∃ t, P.Passes jwt_svc.crates w cmd t) := by
  unfold JwtService.refresh
  dsimp only
  have hstep : ∀ s, P.fails s = true → ¬ ∃ t, P.Passes jwt_svc.crates w cmd t := by
    intro s hs hpost
    obtain ⟨t, ht⟩ := hpost
    rw [ht.steps s] at hs
    cases hs
  by_cases he : (trim cmd.refresh_token).isEmpty = true
  · rw [if_pos he]
    exact endsE_throw fun ⟨t, ht⟩ => ht.nonempty (by simpa using he)
  rw [if_neg he]
  refine endsE_bind (planned_begin (fun hbegin => ?_) (hstep .begin))
  refine endsE_in_tx (endsE_mono (Q := fun _ res => (∃ t, P.Passes jwt_svc.crates w cmd t) ∧
      res.refresh_token = base64url P.bytes)
    (E := fun _ _ => ¬ ∃ t, P.Passes jwt_svc.crates w cmd t) ?_
    (fun _ _ h _ _ _ => h) fun _ _ h _ _ _ => h)
  refine endsE_bind (endsE_bind (planned_select (fun hselect => ?_) (hstep .select)))
  have hmem : ∀ t, t ∈ (w.sees me refresh_tokens).filter (fun t =>
      t.token_hash == hash_token jwt_svc.crates (trim cmd.refresh_token)) ↔
      t ∈ w.rows refresh_tokens ∧
        t.token_hash = hash_token jwt_svc.crates (trim cmd.refresh_token) := by
    intro t
    rw [List.mem_filter, mem_sees_rows hset, beq_iff_eq]
  cases hrows : (w.sees me refresh_tokens).filter fun t =>
      t.token_hash == hash_token jwt_svc.crates (trim cmd.refresh_token) with
  | nil =>
      refine endsE_throw fun ⟨t, ht⟩ => ?_
      have hin := (hmem t).mpr ⟨ht.found, ht.hash⟩
      rw [hrows] at hin
      cases hin
  | cons t rest =>
      obtain ⟨hfound, hhash⟩ := (hmem t).mp (hrows ▸ List.mem_cons_self)
      -- with the unique index, the row found is the only one it can be about
      have honly : ∀ {t'}, t' ∈ w.rows refresh_tokens →
          t'.token_hash = hash_token jwt_svc.crates (trim cmd.refresh_token) → t' = t :=
        fun hin hh => List.inj_on_of_nodup_map hkeys hin hfound (hh.trans hhash.symm)
      have hno : ∀ {p : Prop}, (P.Passes jwt_svc.crates w cmd t → p) → ¬ p →
          ¬ ∃ t', P.Passes jwt_svc.crates w cmd t' := by
        intro p hp hnp hpost
        obtain ⟨t', ht'⟩ := hpost
        obtain rfl := honly ht'.found ht'.hash
        exact hnp (hp ht')
      dsimp only
      cases hrev : t.revoked with
      | none => exact endsE_throw (hno (·.live) (by rw [hrev]; exact fun h => nomatch h))
      | some b =>
          refine endsE_ret ?_
          by_cases hb : b = true
          · rw [if_pos hb]
            exact endsE_throw (hno (·.live) (by rw [hrev, hb]; exact fun h => nomatch h))
          rw [if_neg hb]
          refine endsE_bind (endsE_lift (planned_now hset ?_))
          by_cases hx : t.expires_at < P.now
          · rw [if_pos hx]
            exact endsE_throw (hno (·.unexpired) (Int.not_le.mpr hx))
          rw [if_neg hx]
          refine endsE_bind (planned_lookup (fun hlookup hfinds w₂ user hdb₂ _ => ?_) fun h => ?_)
          · refine endsE_bind (endsE_bind (planned_delete (fun hdelete w₃ _ hdesk₃ => endsE_ret ?_)
              (hstep .delete)))
            rw [hdb₂] at hdesk₃
            have hsees := sees_of_delete (T := refresh_tokens) hdesk₃
            have hleft : ∀ a, a ∈ w₃.sees me refresh_tokens ↔ a ∈ w.rows refresh_tokens ∧
                a.token_hash ≠ hash_token jwt_svc.crates (trim cmd.refresh_token) := by
              intro a
              rw [hsees, List.mem_filter, mem_sees_rows hset]
              simp
            refine endsE_bind (planned_issue (fun hsign hinsert hroom w₄ res hres => ?_)
              (hstep .sign) (hstep .insert) fun ⟨a, ha, hh⟩ => ?_)
            · refine endsE_bind (planned_commit (fun hcommit w₅ => endsE_ret ⟨⟨t, ?_⟩, hres⟩)
                (hstep .commit))
              refine ⟨by simpa using he, hfound, hhash, ?_, Int.not_lt.mp hx, hfinds, ?_, ?_⟩
              · rw [hrev, Bool.eq_false_iff.mpr hb]
              · intro s
                cases s <;> assumption
              · intro t' ht' hh
                by_contra hne
                exact hroom t' ((hleft t').mpr ⟨ht', fun hp => hne (honly ht' hp)⟩) hh
            · obtain ⟨hin, hother⟩ := (hleft a).mp ha
              exact hno (fun ht => ht.room a hin hh) fun heq => hother (heq ▸ hhash)
          · rcases h with h | h
            · exact hstep .lookup h
            · exact hno (·.user) (by rw [h]; exact Bool.false_ne_true)

/-! ### What the call leaves -/

/-- Row `t'` has taken the place of row `t`, and nothing else has changed. -/
structure Replaced (c : Crates) (w w' : World) (res : JwtResult) (t t' : RefreshToken) : Prop where
  row : RowFor c t.user_id t.issuer res t'
  rows : w'.rows refresh_tokens = (w.rows refresh_tokens).erase t ++ [t']
  places : w'.places = w.places.map (Option.filter fun r => r != .refresh_token t) ++
    [some (.refresh_token t')]

theorem Exchanged.replaced {cmd : RefreshCmd} {res : JwtResult} {t t' : RefreshToken}
    (h : Exchanged c me w cmd w' res t t') (hset : w.Settled me)
    (hkeys : ((w.rows refresh_tokens).map (·.token_hash)).Nodup) : Replaced c w w' res t t' := by
  have hfound : t ∈ w.rows refresh_tokens := (mem_sees_rows hset).mp h.found
  have hplaces : w'.places = w.places.map (Option.filter fun r => r != .refresh_token t) ++
      [some (.refresh_token t')] := by
    rw [h.places]
    refine congrArg (· ++ _) (List.map_congr_left fun x hx => ?_)
    have hkept : ∀ r : Record, r ≠ .refresh_token t →
        (some r).filter (fun r => r != .refresh_token t) = some r :=
      fun r hr => Option.filter_eq_some_iff.mpr ⟨rfl, bne_iff_ne.mpr hr⟩
    cases x with
    | none => rfl
    | some r =>
        cases hr : refresh_tokens.prj r with
        | none =>
            rw [rewrite_other hr]
            exact (hkept r fun heq => by rw [heq] at hr; cases hr).symm
        | some s =>
            obtain rfl := refresh_tokens.inj_of_prj hr
            by_cases hs : s.token_hash = hash_token c (trim cmd.refresh_token)
            · obtain rfl : s = t := List.inj_on_of_nodup_map hkeys (mem_rows_of_place hx) hfound
                (hs.trans h.hash.symm)
              rw [Desk.rewrite_hit (by simpa using hs)]
              simp [Option.filter, refresh_tokens, Relation.del]
            · rw [Desk.rewrite_miss (by simpa using hs)]
              refine (hkept _ fun heq => hs ?_).symm
              cases heq
              exact h.hash
  refine ⟨h.row, ?_, hplaces⟩
  have hfilter : ∀ a, (refresh_tokens.inj a != Record.refresh_token t) = (a != t) := by
    intro a
    simp [refresh_tokens, bne]
  rw [rows_of_places, hplaces, List.filterMap_append, List.filterMap_append,
    filter_places hfilter, ← rows_of_places, hkeys.of_map.erase_eq_filter]
  rfl

end Walk

section Runs

-- whether anything is left of a presented token is never computed here
attribute [local irreducible] trim

variable {c : Crates} {me : Nat} {P : RefreshPlan} {w w' : World} {jwt_svc : JwtService}
  {cmd : RefreshCmd}

/-- What `refresh` asks for. -/
inductive RefreshOp : Op → Prop
  | sql (o : SqlOp Record) : RefreshOp (.sql o)
  | retrieve (id : Uuid) : RefreshOp (.retrieve id)
  | now : RefreshOp .now
  | fill : RefreshOp (.fill 32)
  | sign (sub : Uuid) (aud : List String) : RefreshOp (.sign sub aud)

theorem refresh_uses (jwt_svc : JwtService) (cmd : RefreshCmd) :
    (jwt_svc.refresh cmd).run.Uses RefreshOp := by
  unfold JwtService.refresh
  generalize trim cmd.refresh_token = raw
  dsimp only
  by_cases he : raw.isEmpty = true
  · rw [if_pos he]
    trivial
  rw [if_neg he]
  refine Prog.uses_bindE (uses_attempt (uses_ask (.sql _))) fun _ =>
    uses_in_tx (Prog.uses_bindE ?_ fun row => ?_) (.sql _)
  · refine Prog.uses_bindE (uses_attempt (uses_select (.sql _))) fun rows => ?_
    cases rows with
    | nil => trivial
    | cons t rest =>
        dsimp only
        cases t.revoked <;> trivial
  · by_cases hr : row.revoked = true
    · rw [if_pos hr]
      trivial
    rw [if_neg hr]
    refine Prog.uses_bindE (uses_lift (uses_ask .now)) fun now => ?_
    by_cases hx : row.expires_at < now
    · rw [if_pos hx]
      trivial
    rw [if_neg hx]
    exact Prog.uses_bindE (uses_attempt (uses_ask (.retrieve _))) fun user =>
      Prog.uses_bindE (Prog.uses_bindE (uses_attempt (uses_delete (.sql _))) fun _ => trivial)
        fun _ => Prog.uses_bindE (Prog.uses_bindE (uses_attempt (uses_ask (.sign _ _))) fun _ =>
          Prog.uses_bindE (uses_lift (Prog.uses_bind (uses_ask .fill) fun _ => trivial)) fun _ =>
          Prog.uses_bindE (uses_lift (uses_ask .now)) fun _ =>
          Prog.uses_bindE (uses_lift (uses_ask .now)) fun _ =>
          Prog.uses_bindE (uses_attempt (uses_insert (.sql _))) fun _ => trivial) fun _ =>
        Prog.uses_bindE (uses_attempt (uses_ask (.sql _))) fun _ => trivial

/-- Each operation has an answer by the plan, if nobody else holds a row. -/
theorem answered_by_plan (P : RefreshPlan) {o : Op} (ho : RefreshOp o)
    (h : w.db.Undisturbed me) : ∃ ch w' r, P.admits me w o ch ∧
      World.answer c me o ch w = some (w', r) ∧ w'.db.Undisturbed me := by
  cases ho with
  | sql o =>
      have hch : ∃ ch out, World.outcome ch = some out ∧
          ∀ s, (Op.sql o).refresh_step = some s → (ch = .fail ↔ P.fails s = true) := by
        cases hs : (Op.sql o).refresh_step with
        | none => exact ⟨.go, _, rfl, fun s h => nomatch h⟩
        | some s =>
            by_cases hf : P.fails s = true
            · exact ⟨.fail, _, rfl, fun s' h => by cases h; exact iff_of_true rfl hf⟩
            · exact ⟨.go, _, rfl, fun s' h => by cases h; exact iff_of_false (fun h => nomatch h) hf⟩
      obtain ⟨ch, out, hout, hfault⟩ := hch
      obtain ⟨w', r, hans, hw'⟩ := answer_sql_undisturbed (c := c) h o hout
      exact ⟨ch, w', r, ⟨hfault, fun h => (nomatch h), fun _ h => (nomatch h), fun _ h => nomatch h⟩,
        hans, hw'⟩
  | retrieve id =>
      by_cases hf : P.fails .lookup = true
      · refine ⟨.fail, w, .error (.Database .other), ⟨fun s h => ?_, fun h => (nomatch h),
          fun _ h => (nomatch h), fun _ _ h => absurd rfl h⟩, rfl, h⟩
        cases h
        exact iff_of_true rfl hf
      have hfault : ∀ {ch : Choice}, ch ≠ .fail →
          ∀ s, (Op.retrieve id).refresh_step = some s → (ch = .fail ↔ P.fails s = true) := by
        intro ch hch s hs
        cases hs
        exact iff_of_false hch hf
      by_cases hcopy : (P.cached && (w.user_cache id).isSome) = true
      · obtain ⟨u, hu⟩ := Option.isSome_iff_exists.mp (Bool.and_eq_true_iff.mp hcopy).2
        refine ⟨.cached, w, .ok u.1, ⟨hfault fun h => (nomatch h), fun h => (nomatch h),
          fun _ h => (nomatch h), fun id' h _ => ?_⟩, ?_, h⟩
        · cases h
          exact iff_of_true rfl hcopy
        · change (w.user_cache id).map (fun u => (w, Except.ok u.1)) = _
          rw [hu]
          rfl
      · have hans : ∃ w' r, World.answer c me (.retrieve id) .go w = some (w', r) := by
          change ∃ w' r, World.answerRetrieve id .go w = some (w', r)
          unfold World.answerRetrieve
          cases hload : w.load id with
          | none => exact ⟨w, .error .NotFound, rfl⟩
          | some u => exact ⟨_, .ok u.1, rfl⟩
        obtain ⟨w', r, hans⟩ := hans
        refine ⟨.go, w', r, ⟨hfault fun h => (nomatch h), fun h => (nomatch h),
          fun _ h => (nomatch h), fun id' h _ => ?_⟩, hans, ?_⟩
        · cases h
          exact iff_of_false (fun h => nomatch h) hcopy
        · rwa [World.answer_quiet (show World.Quiet (.retrieve id) from trivial) hans]
  | now =>
      exact ⟨.time P.now, w, P.now, ⟨fun s h => (nomatch h), fun _ _ => rfl, fun _ h => (nomatch h),
        fun _ h => nomatch h⟩, rfl, h⟩
  | fill =>
      refine ⟨.bytes P.bytes, w, P.bytes, ⟨fun s h => (nomatch h), fun h => (nomatch h),
        fun _ _ => rfl, fun _ h => nomatch h⟩, ?_, h⟩
      exact if_pos P.drawn
  | sign sub aud =>
      by_cases hf : P.fails .sign = true
      · refine ⟨.fail, w, .error "signing failed", ⟨fun s h => ?_, fun h => (nomatch h),
          fun _ h => (nomatch h), fun _ h => nomatch h⟩, rfl, h⟩
        cases h
        exact iff_of_true rfl hf
      · refine ⟨.text "", w, .ok "", ⟨fun s h => ?_, fun h => (nomatch h),
          fun _ h => (nomatch h), fun _ h => nomatch h⟩, rfl, h⟩
        cases h
        exact iff_of_false (fun h => nomatch h) hf

/-- By every plan there is a run. -/
theorem refresh_goes (P : RefreshPlan) (jwt_svc : JwtService) (cmd : RefreshCmd)
    (h : w.db.Undisturbed me) : ∃ r w',
    Prog.Exec (World.answer c) me (P.admits me) (jwt_svc.refresh cmd).run w r w' :=
  Prog.exists_exec (I := fun w : World => w.db.Undisturbed me)
    (fun _ _ ho hw => answered_by_plan P ho hw) (refresh_uses jwt_svc cmd) h

/-- A lookup only adds to the repository's copies. -/
theorem copies_stay {id id' : Uuid} {ch : Choice} {r : Op.Reply (.retrieve id')}
    (hans : World.answer c me (.retrieve id') ch w = some (w', r))
    (h : (w.user_cache id).isSome = true) : (w'.user_cache id).isSome = true := by
  change World.answerRetrieve id' ch w = some (w', r) at hans
  unfold World.answerRetrieve at hans
  split at hans
  · obtain ⟨u, -, heq⟩ := Option.map_eq_some_iff.mp hans
    cases heq
    exact h
  · split at hans
    · cases hans
      by_cases hid : id = id'
      · subst hid
        dsimp only
        rw [Function.update_self]
        rfl
      · dsimp only
        rwa [Function.update_of_ne hid]
    · cases hans
      exact h
  · cases hans
    exact h
  · cases hans

/-- A call takes no row into its hands for good and no copy out of the repository's cache. -/
theorem refresh_keeps {r : Except JwtError JwtResult} {admits : World → Op → Choice → Prop}
    (hrun : Prog.Exec (World.answer c) me admits (jwt_svc.refresh cmd).run w r w') :
    (w.db.Undisturbed me → w'.db.Undisturbed me) ∧
      ∀ id, (w.user_cache id).isSome = true → (w'.user_cache id).isSome = true := by
  constructor
  · refine hrun.invariant (I := fun w : World => w.db.Undisturbed me) (refresh_uses jwt_svc cmd) ?_
    intro w o ch w' r ho _ hans hw
    rcases World.answer_db hans with heq | ⟨q, out, r', -, hdb⟩
    · rwa [heq]
    · exact (SqlOp.answer_worked hdb).undisturbed hw
  · intro id
    refine hrun.invariant (I := fun w : World => (w.user_cache id).isSome = true)
      (refresh_uses jwt_svc cmd) ?_
    intro w o ch w' r ho _ hans hw
    cases ho with
    | sql o =>
        obtain ⟨out, -, -, hw'⟩ := World.answer_sql hans
        rw [hw']
        exact hw
    | retrieve id' => exact copies_stay hans hw
    | now =>
        rw [(World.answer_now hans).2]
        exact hw
    | fill =>
        rw [(World.answer_fill hans).2]
        exact hw
    | sign sub aud =>
        cases ch <;> cases hans <;> exact hw

theorem finds_of_copies (hrows : w'.rows users = w.rows users)
    (hcopies : ∀ id, (w.user_cache id).isSome = true → (w'.user_cache id).isSome = true) {id : Uuid}
    (h : P.finds w id = true) : P.finds w' id = true := by
  have hload : ∀ v : World, (v.load id).isSome =
      ((v.rows users).find? fun u => u.id == id).isSome := by
    intro v
    unfold World.load
    split
    · rename_i u heq
      exact (congrArg Option.isSome heq).symm
    · rename_i heq
      exact (congrArg Option.isSome heq).symm
  unfold RefreshPlan.finds at h ⊢
  rw [hload, hrows, ← hload]
  rcases Bool.or_eq_true_iff.mp h with hc | hl
  · obtain ⟨hcached, hcopy⟩ := Bool.and_eq_true_iff.mp hc
    rw [hcached, hcopies id hcopy]
    rfl
  · rw [hl, Bool.or_true]

end Runs

/-- **A refresh is all or nothing.** Whatever the tables hold, whatever is presented and whatever
fails: the call returns a pair exactly if the presented token is good and no step fails; then one
row has taken the place of another.  Otherwise the rows are as before, and by every plan by which
the token was good it is good for the next call. -/
theorem refresh_all_or_nothing (c : Crates) (jwt_svc : JwtService) (me : Nat) (P : RefreshPlan)
    (w : World) (hset : w.Settled me) (hkeys : ((w.rows refresh_tokens).map (·.token_hash)).Nodup)
    (cmd : RefreshCmd) :
    (∀ r w', Prog.Exec (World.answer c) me (P.admits me) (jwt_svc.refresh cmd).run w r w' →
      ((∃ res, r = .ok res) ↔ ∃ t, P.Passes jwt_svc.crates w cmd t) ∧
      (∀ res, r = .ok res → res.refresh_token = base64url P.bytes ∧
        ∃ t t', P.Passes jwt_svc.crates w cmd t ∧ Replaced jwt_svc.crates w w' res t t') ∧
      (∀ e, r = .error e → w.Unwritten w' ∧ w'.rows refresh_tokens = w.rows refresh_tokens ∧
        ∀ (P' : RefreshPlan) t, P'.Passes jwt_svc.crates w cmd t →
          (w.db.Undisturbed me → w'.db.Undisturbed me) ∧
          ∀ r' w'', Prog.Exec (World.answer c) me (P'.admits me) (jwt_svc.refresh cmd).run w' r' w'' →
            ∃ res, r' = .ok res)) ∧
    (w.db.Undisturbed me → ∃ r w',
      Prog.Exec (World.answer c) me (P.admits me) (jwt_svc.refresh cmd).run w r w') := by
  refine ⟨fun r w' hrun => ?_, fun hfree => refresh_goes P jwt_svc cmd hfree⟩
  have hplan := refresh_by_plan hset hkeys cmd r w' hrun
  have hends := refresh_ends hset cmd r w' hrun
  cases r with
  | ok res =>
      obtain ⟨⟨t, ht⟩, hdraw⟩ := hplan
      obtain ⟨-, t₁, t', hex⟩ := hends
      refine ⟨iff_of_true ⟨res, rfl⟩ ⟨t, ht⟩, fun res' h => ?_, fun e h => nomatch h⟩
      cases h
      have hsame : t₁ = t := List.inj_on_of_nodup_map hkeys ((mem_sees_rows hset).mp hex.found)
        ht.found (hex.hash.trans ht.hash.symm)
      rw [hsame] at hex
      exact ⟨hdraw, t, t', ht, hex.replaced hset hkeys⟩
  | error e =>
      obtain ⟨hset', hsame⟩ := hends
      refine ⟨iff_of_false (fun ⟨_, h⟩ => nomatch h) hplan, fun res h => (nomatch h),
        fun e' _ => ?_⟩
      have hrows : ∀ {α : Type} (T : Relation α), w'.rows T = w.rows T := by
        intro α T
        rw [rows_of_places, rows_of_places]
        rcases hsame with h | h <;> rw [h]
        rw [List.filterMap_append]
        exact congrArg _ (List.append_nil _)
      obtain ⟨hfree, hcopies⟩ := refresh_keeps hrun
      refine ⟨hsame, hrows _, fun P' t ht => ⟨hfree, fun r' w'' hrun' => ?_⟩⟩
      have hkeys' : ((w'.rows refresh_tokens).map (·.token_hash)).Nodup := by rwa [hrows]
      have hpass : P'.Passes jwt_svc.crates w' cmd t :=
        { ht with
          found := by rw [hrows]; exact ht.found
          user := finds_of_copies (hrows users) hcopies ht.user
          room := by rw [hrows]; exact ht.room }
      have hplan' := refresh_by_plan hset' hkeys' cmd r' w'' hrun'
      cases r' with
      | ok res => exact ⟨res, rfl⟩
      | error e => exact absurd ⟨t, hpass⟩ hplan'

theorem calm_draw : (List.replicate 32 (2 : UInt8)).length = 32 := List.length_replicate

/-- Nothing fails. -/
def calm_plan : RefreshPlan :=
  { fails := fun _ => false, now := 0, bytes := List.replicate 32 2, drawn := calm_draw,
    cached := false }

/-- Alice refreshes a token she holds: the call returns, and a new row is in place of the old. -/
theorem refresh_all_or_nothing_for_alice : ∃ res w' t t',
    Prog.Exec (World.answer sample_crates) 0 (calm_plan.admits 0)
      (sample_jwt.refresh ⟨token_of 1⟩).run (World.of signed_in) (.ok res) w' ∧
    Replaced sample_crates (World.of signed_in) w' res t t' := by
  have hkeys : (((World.of signed_in).rows refresh_tokens).map (·.token_hash)).Nodup := by decide
  obtain ⟨hrun, hgoes⟩ := refresh_all_or_nothing sample_crates sample_jwt 0 calm_plan
    (World.of signed_in) (settled_of 0 signed_in) hkeys ⟨token_of 1⟩
  obtain ⟨r, w', hexec⟩ := hgoes (undisturbed_of signed_in)
  obtain ⟨hiff, hok, -⟩ := hrun r w' hexec
  have htrim : trim (token_of 1) = token_of 1 := trim_base64url _
  have hpass : calm_plan.Passes sample_crates (World.of signed_in) ⟨token_of 1⟩
      (sample_token (token_of 1)) := by
    refine ⟨?_, by decide, ?_, rfl, by decide, rfl, fun _ => rfl, ?_⟩
    · rw [htrim]
      decide
    · rw [htrim]
      rfl
    · decide
  obtain ⟨res, rfl⟩ := hiff.mpr ⟨_, hpass⟩
  obtain ⟨-, t, t', -, hrep⟩ := hok res rfl
  exact ⟨res, w', t, t', hexec, hrep⟩

end Authnz
