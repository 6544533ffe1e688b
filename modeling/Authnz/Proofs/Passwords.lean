/-
The two ways of setting a password, under concurrency.

`change_password` reads the hash, checks the current password against it and
updates the row, each on a connection of its own; `confirm_password_reset` flips the
reset row and updates the user's row in one transaction.  Here both are taken apart
into the parts of their statements, and the invariant says for every call which rows
it holds, what it will leave there and what it has committed.
-/
import Authnz.Model.Users
import Authnz.Proofs.Walking

namespace Authnz

open Basis

inductive PasswordCall where
  | change (cmd : ChangePasswordCmd)
  | reset (cmd : ConfirmPasswordResetCmd)
  deriving DecidableEq

/-- What the call returned: a reset says whose password it was. -/
inductive PasswordResult where
  | changed (r : Except AuthError Unit)
  | reset (r : Except AuthError Uuid)

def PasswordCall.code (c : Crates) : PasswordCall → Handler PasswordResult
  | .change cmd => do return .changed (← (UserService.change_password c cmd).run)
  | .reset cmd => do return .reset (← (UserService.confirm_password_reset c cmd).run)

/-- Any number of changes and resets at once. -/
abbrev passwords (c : Crates) :
    System Op Op.Reply Choice World PasswordCall Expiry PasswordResult :=
  service c (PasswordCall.code c)

abbrev PasswordConfig : Type := Config Op Op.Reply World PasswordCall PasswordResult

/-! ### The calls, in phases -/

inductive PasswordPhase where
  | start
  /-- A statement failed within the open transaction. -/
  | bad
  | closed
  /-- `change_password` has read these rows. -/
  | looked (rows : List Record)
  /-- It has accepted the current password against `hash`. -/
  | hashed (hash new : String)
  | writing (hash new : String) (is : List Nat) (acc : List (Nat × Record))
  | changed (hash new : String) (acc : List (Nat × Record))
  /-- `confirm_password_reset` has read the clock. -/
  | timed (now : Time)
  | claiming (now : Time) (is : List Nat) (acc : List (Nat × Record))
  | rehashed (now : Time) (acc : List (Nat × Record)) (reset : PasswordReset) (new : String)
  | applying (now : Time) (acc : List (Nat × Record)) (reset : PasswordReset) (new : String)
      (is : List Nat) (acc₂ : List (Nat × Record))
  | applied (now : Time) (acc : List (Nat × Record)) (reset : PasswordReset) (new : String)
      (acc₂ : List (Nat × Record))

inductive PasswordStep (c : Crates) :
    PasswordCall → PasswordPhase → (o : Op) → o.Reply → PasswordPhase → Prop
  | read {cmd : ChangePasswordCmd} {rows : List Record} :
      PasswordStep c (.change cmd) .start (.sql (.select (users.sel (UserIs cmd.user_id))))
        (Except.ok rows) (.looked rows)
  | read_fails {cmd : ChangePasswordCmd} {e : DbError} :
      PasswordStep c (.change cmd) .start (.sql (.select (users.sel (UserIs cmd.user_id))))
        (Except.error e) .closed
  | hash {cmd : ChangePasswordCmd} {rows : List Record} {u : User} {us : List User} {new : String}
      (hrows : rows.filterMap users.prj = u :: us)
      (hv : c.bcrypt_verify cmd.current_password u.password_hash = some true) :
      PasswordStep c (.change cmd) (.looked rows) (.bcrypt_hash cmd.new_password)
        (Except.ok new) (.hashed u.password_hash new)
  | hash_fails {cmd : ChangePasswordCmd} {rows : List Record} {e : Failed} :
      PasswordStep c (.change cmd) (.looked rows) (.bcrypt_hash cmd.new_password)
        (Except.error e) .closed
  | scan {cmd : ChangePasswordCmd} {hash new : String} {is : List Nat} :
      PasswordStep c (.change cmd) (.hashed hash new) (.sql (.scan (users.sel (UserIs cmd.user_id))))
        (Except.ok is) (.writing hash new is [])
  | scan_fails {cmd : ChangePasswordCmd} {hash new : String} {e : DbError} :
      PasswordStep c (.change cmd) (.hashed hash new) (.sql (.scan (users.sel (UserIs cmd.user_id))))
        (Except.error e) .bad
  | visit {cmd : ChangePasswordCmd} {hash new : String} {i : Nat} {is : List Nat}
      {acc : List (Nat × Record)} {rows : List Record} :
      PasswordStep c (.change cmd) (.writing hash new (i :: is) acc)
        (.sql (.visit i (users.sel (UserIs cmd.user_id)) (users.set (·.with_hash new))))
        (Except.ok rows) (.writing hash new is (acc ++ rows.map fun x => (i, x)))
  | visit_fails {cmd : ChangePasswordCmd} {hash new : String} {i : Nat} {is : List Nat}
      {acc : List (Nat × Record)} {e : DbError} :
      PasswordStep c (.change cmd) (.writing hash new (i :: is) acc)
        (.sql (.visit i (users.sel (UserIs cmd.user_id)) (users.set (·.with_hash new))))
        (Except.error e) .bad
  | commit {cmd : ChangePasswordCmd} {hash new : String} {acc : List (Nat × Record)} :
      PasswordStep c (.change cmd) (.writing hash new [] acc) (.sql .commit) (Except.ok ())
        (.changed hash new acc)
  | commit_fails {cmd : ChangePasswordCmd} {hash new : String} {acc : List (Nat × Record)}
      {e : DbError} :
      PasswordStep c (.change cmd) (.writing hash new [] acc) (.sql .commit) (Except.error e) .closed
  | clock {cmd : ConfirmPasswordResetCmd} {now : Time} :
      PasswordStep c (.reset cmd) .start .now now (.timed now)
  | begin {cmd : ConfirmPasswordResetCmd} {now : Time} :
      PasswordStep c (.reset cmd) (.timed now) (.sql .begin) (Except.ok ()) (.timed now)
  | begin_fails {cmd : ConfirmPasswordResetCmd} {now : Time} {e : DbError} :
      PasswordStep c (.reset cmd) (.timed now) (.sql .begin) (Except.error e) .closed
  | scan_resets {cmd : ConfirmPasswordResetCmd} {now : Time} {is : List Nat} :
      PasswordStep c (.reset cmd) (.timed now)
        (.sql (.scan (password_resets.sel (Redeemable (hash_token c cmd.token) now))))
        (Except.ok is) (.claiming now is [])
  | scan_resets_fails {cmd : ConfirmPasswordResetCmd} {now : Time} {e : DbError} :
      PasswordStep c (.reset cmd) (.timed now)
        (.sql (.scan (password_resets.sel (Redeemable (hash_token c cmd.token) now))))
        (Except.error e) .bad
  | claim {cmd : ConfirmPasswordResetCmd} {now : Time} {i : Nat} {is : List Nat}
      {acc : List (Nat × Record)} {rows : List Record} :
      PasswordStep c (.reset cmd) (.claiming now (i :: is) acc)
        (.sql (.visit i (password_resets.sel (Redeemable (hash_token c cmd.token) now))
          (password_resets.set (·.spent))))
        (Except.ok rows) (.claiming now is (acc ++ rows.map fun x => (i, x)))
  | claim_fails {cmd : ConfirmPasswordResetCmd} {now : Time} {i : Nat} {is : List Nat}
      {acc : List (Nat × Record)} {e : DbError} :
      PasswordStep c (.reset cmd) (.claiming now (i :: is) acc)
        (.sql (.visit i (password_resets.sel (Redeemable (hash_token c cmd.token) now))
          (password_resets.set (·.spent))))
        (Except.error e) .bad
  | unclaimed {cmd : ConfirmPasswordResetCmd} {now : Time} {acc : List (Nat × Record)} :
      PasswordStep c (.reset cmd) (.claiming now [] acc) (.sql .rollback) () .closed
  | rehash {cmd : ConfirmPasswordResetCmd} {now : Time} {acc : List (Nat × Record)}
      {reset : PasswordReset} {resets : List PasswordReset} {new : String}
      (hrows : (acc.map Prod.snd).filterMap password_resets.prj = reset :: resets) :
      PasswordStep c (.reset cmd) (.claiming now [] acc) (.bcrypt_hash cmd.new_password)
        (Except.ok new) (.rehashed now acc reset new)
  | rehash_fails {cmd : ConfirmPasswordResetCmd} {now : Time} {acc : List (Nat × Record)}
      {e : Failed} :
      PasswordStep c (.reset cmd) (.claiming now [] acc) (.bcrypt_hash cmd.new_password)
        (Except.error e) .bad
  | scan_owner {cmd : ConfirmPasswordResetCmd} {now : Time} {acc : List (Nat × Record)}
      {reset : PasswordReset} {new : String} {is : List Nat} :
      PasswordStep c (.reset cmd) (.rehashed now acc reset new)
        (.sql (.scan (users.sel (UserIs reset.user_id))))
        (Except.ok is) (.applying now acc reset new is [])
  | scan_owner_fails {cmd : ConfirmPasswordResetCmd} {now : Time} {acc : List (Nat × Record)}
      {reset : PasswordReset} {new : String} {e : DbError} :
      PasswordStep c (.reset cmd) (.rehashed now acc reset new)
        (.sql (.scan (users.sel (UserIs reset.user_id)))) (Except.error e) .bad
  | apply {cmd : ConfirmPasswordResetCmd} {now : Time} {acc acc₂ : List (Nat × Record)}
      {reset : PasswordReset} {new : String} {i : Nat} {is : List Nat} {rows : List Record} :
      PasswordStep c (.reset cmd) (.applying now acc reset new (i :: is) acc₂)
        (.sql (.visit i (users.sel (UserIs reset.user_id)) (users.set (·.with_hash_at new now))))
        (Except.ok rows) (.applying now acc reset new is (acc₂ ++ rows.map fun x => (i, x)))
  | apply_fails {cmd : ConfirmPasswordResetCmd} {now : Time} {acc acc₂ : List (Nat × Record)}
      {reset : PasswordReset} {new : String} {i : Nat} {is : List Nat} {e : DbError} :
      PasswordStep c (.reset cmd) (.applying now acc reset new (i :: is) acc₂)
        (.sql (.visit i (users.sel (UserIs reset.user_id)) (users.set (·.with_hash_at new now))))
        (Except.error e) .bad
  | commit_reset {cmd : ConfirmPasswordResetCmd} {now : Time} {acc acc₂ : List (Nat × Record)}
      {reset : PasswordReset} {new : String} :
      PasswordStep c (.reset cmd) (.applying now acc reset new [] acc₂) (.sql .commit)
        (Except.ok ()) (.applied now acc reset new acc₂)
  | commit_reset_fails {cmd : ConfirmPasswordResetCmd} {now : Time}
      {acc acc₂ : List (Nat × Record)} {reset : PasswordReset} {new : String} {e : DbError} :
      PasswordStep c (.reset cmd) (.applying now acc reset new [] acc₂) (.sql .commit)
        (Except.error e) .closed
  | drop {call : PasswordCall} : PasswordStep c call .bad (.sql .rollback) () .closed
  | dropped {call : PasswordCall} : PasswordStep c call .closed (.sql .rollback) () .closed
  | drop_applied {cmd : ConfirmPasswordResetCmd} {now : Time} {acc acc₂ : List (Nat × Record)}
      {reset : PasswordReset} {new : String} :
      PasswordStep c (.reset cmd) (.applied now acc reset new acc₂) (.sql .rollback) ()
        (.applied now acc reset new acc₂)

theorem PasswordStep.part {c : Crates} {call : PasswordCall} {ph ph' : PasswordPhase} {o : Op}
    {r : o.Reply} (h : PasswordStep c call ph o r ph') : World.Part o := by
  cases h <;> first
    | exact .quiet trivial
    | exact .sql (by constructor)

/-- The current password does not match what was read. -/
def Rejected (c : Crates) (cmd : ChangePasswordCmd) (rows : List Record) : Prop :=
  ∀ u us, rows.filterMap users.prj = u :: us →
    c.bcrypt_verify cmd.current_password u.password_hash ≠ some true

/-- Setting a password, as a protocol. -/
abbrev setting (c : Crates) : Protocol Op Op.Reply PasswordCall PasswordResult where
  Phase := PasswordPhase
  start _ := .start
  Step := PasswordStep c
  Final call ph
    | .changed (.ok _) => ∃ hash new acc, ph = .changed hash new acc
    | .reset (.ok id) => ∃ now acc reset new acc₂,
        ph = .applied now acc reset new acc₂ ∧ id = reset.user_id
    | .changed (.error _) => ph = .start ∨ ph = .closed ∨
        ∃ rows, ph = .looked rows ∧ ∀ cmd, call = .change cmd → Rejected c cmd rows
    | .reset (.error _) => ph = .start ∨ ph = .closed

theorem change_follows (c : Crates) (cmd : ChangePasswordCmd) :
    (setting c).Follows (.change cmd) ((passwords c).code (.change cmd)) := by
  change Goes (setting c) _ ((UserService.change_password c cmd).run >>= _) _ _
  refine goes_run ?_
  unfold UserService.change_password
  by_cases hscore : c.zxcvbn_score cmd.new_password < 3
  · simp only [hscore, if_true]
    exact .inl rfl
  simp only [hscore, if_false]
  refine goesE_bind (goesE_bind (goesE_select (fun rows => .read) (fun e => .read_fails)
    (fun rows => ?_) (fun e => .inr (.inl rfl))))
  · cases hrows : rows.filterMap users.prj with
    | nil => exact .inr (.inr ⟨_, rfl, fun cmd' _ u us hus => by rw [hrows] at hus; cases hus⟩)
    | cons u us =>
        refine goesE_ret ?_
        by_cases hv : c.bcrypt_verify cmd.current_password u.password_hash = some true
        · simp only [hv, Option.getD_some, Bool.not_true, Bool.false_eq_true, if_false]
          refine goesE_bind (goesE_attempt (goes_ask ?_))
          intro r
          cases r with
          | error e => exact ⟨_, .hash_fails, .inr (.inl rfl)⟩
          | ok new =>
              refine ⟨_, .hash hrows hv, ?_⟩
              exact goesE_bind (goesE_write_pool (.writing u.password_hash new) (fun is => .scan)
                (fun e => .scan_fails) (fun i is acc rows => .visit)
                (fun i is acc e => .visit_fails) (fun acc => .commit)
                (fun acc e => .commit_fails) .drop (fun acc => ⟨_, _, acc, rfl⟩)
                (fun e => .inr (.inl rfl)))
        · have hfalse : (c.bcrypt_verify cmd.current_password u.password_hash).getD false = false := by
            cases hb : c.bcrypt_verify cmd.current_password u.password_hash with
            | none => rfl
            | some b => cases b <;> simp_all
          simp only [hfalse, Bool.not_false, if_true]
          refine .inr (.inr ⟨_, rfl, ?_⟩)
          rintro cmd' ⟨⟩ u' us' hus
          obtain ⟨rfl, -⟩ := List.cons.inj (hrows.symm.trans hus)
          exact hv

/-- What `confirm_password_reset` goes through, and where it ends. -/
theorem confirm_goes (c : Crates) (cmd : ConfirmPasswordResetCmd) :
    GoesE (setting c) (.reset cmd) (UserService.confirm_password_reset c cmd) .start
      (fun ph id => ∃ now acc reset new acc₂, ph = .applied now acc reset new acc₂ ∧
        id = reset.user_id)
      (fun ph _ => ph = .start ∨ ph = .closed) := by
  unfold UserService.confirm_password_reset
  by_cases hscore : c.zxcvbn_score cmd.new_password < 3
  · simp only [hscore, if_true]
    exact .inl rfl
  simp only [hscore, if_false]
  refine goesE_bind (goesE_lift (goes_ask ?_))
  intro now
  refine ⟨_, .clock, ?_⟩
  refine goesE_bind (goesE_attempt (goes_ask ?_))
  intro r
  cases r with
  | error e => exact ⟨_, .begin_fails, .inr rfl⟩
  | ok u =>
      refine ⟨_, .begin, ?_⟩
      refine goesE_in_tx (goesE_bind (goesE_write_tx (.claiming now) (fun is => .scan_resets)
        (fun e => .scan_resets_fails) (fun i is acc rows => .claim)
        (fun i is acc e => .claim_fails) (fun acc => ?_) (fun e => ⟨_, .drop, .inr rfl⟩)))
      · cases hrows : (acc.map Prod.snd).filterMap password_resets.prj with
        | nil => exact ⟨_, .unclaimed, .inr rfl⟩
        | cons reset resets =>
            refine goesE_bind (goesE_attempt (goes_ask ?_))
            intro r
            cases r with
            | error e => exact ⟨_, .rehash_fails, _, .drop, .inr rfl⟩
            | ok new =>
                refine ⟨_, .rehash hrows, ?_⟩
                refine goesE_bind (goesE_write_tx (.applying now acc reset new)
                  (fun is => .scan_owner) (fun e => .scan_owner_fails)
                  (fun i is acc rows => .apply) (fun i is acc e => .apply_fails)
                  (fun acc₂ => ?_) (fun e => ⟨_, .drop, .inr rfl⟩))
                · refine goesE_bind (goesE_attempt (goes_ask ?_))
                  intro r
                  cases r with
                  | error e => exact ⟨_, .commit_reset_fails, _, .dropped, .inr rfl⟩
                  | ok u =>
                      exact ⟨_, .commit_reset, _, .drop_applied, _, _, _, _, _, rfl, rfl⟩

theorem reset_follows (c : Crates) (cmd : ConfirmPasswordResetCmd) :
    (setting c).Follows (.reset cmd) ((passwords c).code (.reset cmd)) := by
  change Goes (setting c) _ ((UserService.confirm_password_reset c cmd).run >>= _) _ _
  exact goes_run (goesE_mono (confirm_goes c cmd) (fun _ _ h => h) fun _ _ h => h)

theorem setting_follows (c : Crates) (call : PasswordCall) :
    (setting c).Follows call ((passwords c).code call) := by
  cases call with
  | change cmd => exact change_follows c cmd
  | reset cmd => exact reset_follows c cmd

/-! ### The rows the calls work on -/

/-- What the schema promises of the rows: its unique indexes and its foreign key. -/
structure Schema (rows : List Record) : Prop where
  user_ids : ∀ {a b : Nat} {u v : User}, rows[a]? = some (.user u) → rows[b]? = some (.user v) →
    u.id = v.id → a = b
  reset_hashes : ∀ {a b : Nat} {p q : PasswordReset}, rows[a]? = some (.password_reset p) →
    rows[b]? = some (.password_reset q) → p.token_hash = q.token_hash → a = b
  owners : ∀ {a : Nat} {p : PasswordReset}, rows[a]? = some (.password_reset p) →
    ∃ (b : Nat) (u : User), rows[b]? = some (.user u) ∧ u.id = p.user_id

/-- A user's row stays a row of that user. -/
structure UserSlot (id : Uuid) (s : Slot Record) : Prop where
  current : ∃ u, s.current = some (.user u) ∧ u.id = id
  lock : ∀ {k : Nat} {v : Option Record}, s.lock = some (k, v) → ∃ u, v = some (.user u) ∧ u.id = id

/-- A reset row is as it was, or one call has marked it used and nobody holds it any more. -/
def ResetSlot (p : PasswordReset) (s : Slot Record) : Prop :=
  (s.versions = [⟨none, some (.password_reset p)⟩] ∧
      ∀ {k : Nat} {v : Option Record}, s.lock = some (k, v) → v = some (.password_reset p.spent)) ∨
    ∃ k, s = ⟨[⟨some k, some (.password_reset p.spent)⟩, ⟨none, some (.password_reset p)⟩], none⟩

/-- What has become of the row that was `r` at the start. -/
def RowSlot (r : Record) (s : Slot Record) : Prop :=
  match r with
  | .user u => UserSlot u.id s
  | .password_reset p => ResetSlot p s
  | r => s = Slot.loaded r

namespace UserSlot

variable {id : Uuid} {s : Slot Record} {me : Nat}

theorem view (h : UserSlot id s) (me : Nat) : ∃ u, s.view me = some (.user u) ∧ u.id = id := by
  cases hl : s.lock with
  | none =>
      rw [Slot.view_of_unlocked hl]
      exact h.current
  | some l =>
      obtain ⟨t, v⟩ := l
      by_cases ht : t = me
      · subst ht
        rw [Slot.view_of_own hl]
        exact h.lock hl
      · rw [Slot.view_of_other hl ht]
        exact h.current

theorem hold (h : UserSlot id s) {u : User} (hu : u.id = id) :
    UserSlot id (s.hold me (some (.user u))) := by
  refine ⟨h.current, fun {k v} hl => ?_⟩
  simp only [Slot.hold, Option.some.injEq, Prod.mk.injEq] at hl
  exact ⟨u, hl.2.symm, hu⟩

theorem commit (h : UserSlot id s) : UserSlot id (s.commit me) := by
  by_cases hown : ∃ v, s.lock = some (me, v)
  · obtain ⟨v, hv⟩ := hown
    rw [Slot.commit_of_own hv]
    obtain ⟨u, rfl, hu⟩ := h.lock hv
    exact ⟨⟨u, rfl, hu⟩, fun hl => by cases hl⟩
  · rw [Slot.commit_of_not_own fun r hr => hown ⟨r, hr⟩]
    exact h

theorem rollback (h : UserSlot id s) : UserSlot id (s.rollback me) := by
  by_cases hown : ∃ v, s.lock = some (me, v)
  · obtain ⟨v, hv⟩ := hown
    rw [Slot.rollback_of_own hv]
    exact ⟨h.current, fun hl => by cases hl⟩
  · rw [Slot.rollback_of_not_own fun r hr => hown ⟨r, hr⟩]
    exact h

end UserSlot

namespace ResetSlot

variable {p : PasswordReset} {s : Slot Record} {me : Nat}

/-- Every caller sees the reset as it was, or marked used. -/
theorem view (h : ResetSlot p s) (me : Nat) :
    s.view me = some (.password_reset p) ∨ s.view me = some (.password_reset p.spent) := by
  rcases h with ⟨hv, hl⟩ | ⟨k, rfl⟩
  · have hc : s.current = some (.password_reset p) := by simp [Slot.current, hv]
    cases hlock : s.lock with
    | none => exact .inl (by rw [Slot.view_of_unlocked hlock, hc])
    | some l =>
        obtain ⟨t, v⟩ := l
        by_cases ht : t = me
        · subst ht
          exact .inr (by rw [Slot.view_of_own hlock, hl hlock])
        · exact .inl (by rw [Slot.view_of_other hlock ht, hc])
  · exact .inr rfl

/-- A reset somebody can still redeem is as it was. -/
theorem of_redeemable (h : ResetSlot p s) {hash : String} {now : Time} {q : PasswordReset}
    (hv : s.view me = some (.password_reset q)) (hq : Redeemable hash now q = true) :
    q = p ∧ s.versions = [⟨none, some (.password_reset p)⟩] := by
  have hunused : q.used = some false := by
    simp only [Redeemable, Bool.and_eq_true, beq_iff_eq] at hq
    exact hq.1.2
  rcases h with ⟨hvs, hl⟩ | ⟨k, rfl⟩
  · refine ⟨?_, hvs⟩
    rcases view (.inl ⟨hvs, hl⟩) me with hview | hview
    · rw [hview] at hv
      cases hv
      rfl
    · rw [hview] at hv
      cases hv
      cases hunused
  · cases hv
    cases hunused

/-- One call at most has written a version. -/
theorem writer_unique (h : ResetSlot p s) {i j : Nat} {v v' : Option Record}
    (hi : ⟨some i, v⟩ ∈ s.versions) (hj : ⟨some j, v'⟩ ∈ s.versions) : i = j := by
  rcases h with ⟨hv, -⟩ | ⟨k, rfl⟩
  · simp [hv] at hi
  · simp only [List.mem_cons, Version.mk.injEq, Option.some.injEq, reduceCtorEq, false_and,
      List.not_mem_nil, or_false] at hi hj
    exact hi.1.trans hj.1.symm

theorem hold (h : s.versions = [⟨none, some (.password_reset p)⟩]) :
    ResetSlot p (s.hold me (some (.password_reset p.spent))) := by
  refine .inl ⟨h, fun {k v} hl => ?_⟩
  simp only [Slot.hold, Option.some.injEq, Prod.mk.injEq] at hl
  exact hl.2.symm

theorem commit (h : ResetSlot p s) : ResetSlot p (s.commit me) := by
  by_cases hown : ∃ v, s.lock = some (me, v)
  · obtain ⟨v, hv⟩ := hown
    rw [Slot.commit_of_own hv]
    rcases h with ⟨hvs, hl⟩ | ⟨k, rfl⟩
    · exact .inr ⟨me, by rw [hvs, hl hv]⟩
    · cases hv
  · rw [Slot.commit_of_not_own fun r hr => hown ⟨r, hr⟩]
    exact h

theorem rollback (h : ResetSlot p s) : ResetSlot p (s.rollback me) := by
  by_cases hown : ∃ v, s.lock = some (me, v)
  · obtain ⟨v, hv⟩ := hown
    rw [Slot.rollback_of_own hv]
    rcases h with ⟨hvs, hl⟩ | ⟨k, rfl⟩
    · exact .inl ⟨hvs, fun hl => by cases hl⟩
    · cases hv
  · rw [Slot.rollback_of_not_own fun r hr => hown ⟨r, hr⟩]
    exact h

end ResetSlot

namespace RowSlot

variable {r : Record} {s : Slot Record} {me : Nat}

theorem loaded (r : Record) : RowSlot r (Slot.loaded r) := by
  cases r with
  | user u => exact ⟨⟨u, rfl, rfl⟩, fun hl => by cases hl⟩
  | password_reset p => exact .inl ⟨rfl, fun hl => by cases hl⟩
  | session | refresh_token | passkey_credential | event => rfl

theorem commit (h : RowSlot r s) : RowSlot r (s.commit me) := by
  cases r with
  | user u => exact UserSlot.commit h
  | password_reset p => exact ResetSlot.commit h
  | session | refresh_token | passkey_credential | event =>
      obtain rfl : s = _ := h
      rfl

theorem rollback (h : RowSlot r s) : RowSlot r (s.rollback me) := by
  cases r with
  | user u => exact UserSlot.rollback h
  | password_reset p => exact ResetSlot.rollback h
  | session | refresh_token | passkey_credential | event =>
      obtain rfl : s = _ := h
      rfl

/-- A row seen as a user's is a user's. -/
theorem of_user (h : RowSlot r s) {u : User} (hv : s.view me = some (.user u)) :
    ∃ u₀, r = .user u₀ ∧ u.id = u₀.id := by
  cases r with
  | user u₀ =>
      obtain ⟨u', hu', hid⟩ := UserSlot.view h me
      rw [hu'] at hv
      cases hv
      exact ⟨u₀, rfl, hid⟩
  | password_reset p =>
      rcases ResetSlot.view h me with hv' | hv' <;> rw [hv'] at hv <;> cases hv
  | session | refresh_token | passkey_credential | event =>
      obtain rfl : s = _ := h
      cases hv

/-- A row committed as a user's is a user's. -/
theorem of_current (h : RowSlot r s) {u : User} (hc : s.current = some (.user u)) :
    ∃ u₀, r = .user u₀ ∧ u.id = u₀.id := by
  obtain ⟨me, hv⟩ : ∃ me, s.view me = s.current := by
    cases hl : s.lock with
    | none => exact ⟨0, Slot.view_of_unlocked hl 0⟩
    | some l => exact ⟨l.1 + 1, Slot.view_of_other hl (Nat.ne_of_lt (Nat.lt_succ_self l.1))⟩
  exact h.of_user (hv.trans hc)

theorem of_reset (h : RowSlot r s) {p : PasswordReset} (hv : s.view me = some (.password_reset p)) :
    ∃ p₀, r = .password_reset p₀ := by
  cases r with
  | user u₀ =>
      obtain ⟨u', hu', -⟩ := UserSlot.view h me
      rw [hu'] at hv
      cases hv
  | password_reset p₀ => exact ⟨p₀, rfl⟩
  | session | refresh_token | passkey_credential | event =>
      obtain rfl : s = _ := h
      cases hv

end RowSlot

/-! ### What a call holds and has committed, phase by phase -/

namespace PasswordPhase

/-- What the call holds; unknown where a statement has just failed. -/
def held : PasswordPhase → Option (List (Nat × Option Record))
  | .bad => none
  | .writing _ _ _ acc => some (marks acc)
  | .claiming _ _ acc => some (marks acc)
  | .rehashed _ acc _ _ => some (marks acc)
  | .applying _ acc _ _ _ acc₂ => some (marks acc ++ marks acc₂)
  | _ => some []

/-- What the call has committed. -/
def wrote : PasswordPhase → List (Nat × Option Record)
  | .changed _ _ acc => marks acc
  | .applied _ acc _ _ acc₂ => marks acc ++ marks acc₂
  | _ => []

end PasswordPhase

section Facts

variable (c : Crates) (rows : List Record) (db : Table Record) (k : Nat)

/-- Row `b` is the user's. -/
def UserAt (b : Nat) (id : Uuid) : Prop := ∃ u, rows[b]? = some (.user u) ∧ u.id = id

/-- In the middle of `UPDATE users SET f WHERE id = ..`: the user's row is still to be visited,
or it is held. -/
def Updating (id : Uuid) (f : User → User) (is : List Nat) (acc : List (Nat × Record)) : Prop :=
  (acc = [] ∧ ∃ b, is = [b] ∧ UserAt rows b id) ∨
    (is = [] ∧ ∃ b u, acc = [(b, .user (f u))] ∧ UserAt rows b id ∧ u.id = id ∧
      db.Pending k b (.user u) (.user (f u)))

/-- After it: the call has made `f u` of the user's row. -/
def Updated (id : Uuid) (f : User → User) (acc : List (Nat × Record)) : Prop :=
  ∃ b u, acc = [(b, .user (f u))] ∧ UserAt rows b id ∧ u.id = id ∧
    db.Wrote k b (.user u) (.user (f u))

/-- The one reset the call holds. -/
def Claimed (cmd : ConfirmPasswordResetCmd) (now : Time) (acc : List (Nat × Record))
    (p : PasswordReset) : Prop :=
  Redeemable (hash_token c cmd.token) now p = true ∧ ∃ a, acc = [(a, .password_reset p.spent)] ∧
    rows[a]? = some (.password_reset p) ∧
    db.Pending k a (.password_reset p) (.password_reset p.spent)

/-- The one reset the call has marked used. -/
def Redeemed (cmd : ConfirmPasswordResetCmd) (now : Time) (acc : List (Nat × Record))
    (p : PasswordReset) : Prop :=
  Redeemable (hash_token c cmd.token) now p = true ∧ ∃ a, acc = [(a, .password_reset p.spent)] ∧
    rows[a]? = some (.password_reset p) ∧
    db.Wrote k a (.password_reset p) (.password_reset p.spent)

/-- What a call's phase says of the table. -/
def PasswordFacts : PasswordCall → PasswordPhase → Prop
  | .change cmd, .looked l =>
      ∀ u us, l.filterMap users.prj = u :: us → ∃ b, UserAt rows b cmd.user_id
  | .change cmd, .hashed _ new =>
      (∃ salt, new = c.bcrypt_hash cmd.new_password salt) ∧ ∃ b, UserAt rows b cmd.user_id
  | .change cmd, .writing _ new is acc =>
      (∃ salt, new = c.bcrypt_hash cmd.new_password salt) ∧
        Updating rows db k cmd.user_id (·.with_hash new) is acc
  | .change cmd, .changed _ new acc =>
      (∃ salt, new = c.bcrypt_hash cmd.new_password salt) ∧
        Updated rows db k cmd.user_id (·.with_hash new) acc
  | .reset cmd, .claiming now is acc =>
      (acc = [] ∧ is.length ≤ 1) ∨ (is = [] ∧ ∃ p, Claimed c rows db k cmd now acc p)
  | .reset cmd, .rehashed now acc reset new =>
      (∃ salt, new = c.bcrypt_hash cmd.new_password salt) ∧
        ∃ p, Claimed c rows db k cmd now acc p ∧ reset = p.spent
  | .reset cmd, .applying now acc reset new is acc₂ =>
      (∃ salt, new = c.bcrypt_hash cmd.new_password salt) ∧
        (∃ p, Claimed c rows db k cmd now acc p ∧ reset = p.spent) ∧
        Updating rows db k reset.user_id (·.with_hash_at new now) is acc₂
  | .reset cmd, .applied now acc reset new acc₂ =>
      (∃ salt, new = c.bcrypt_hash cmd.new_password salt) ∧
        (∃ p, Redeemed c rows db k cmd now acc p ∧ reset = p.spent) ∧
        Updated rows db k reset.user_id (·.with_hash_at new now) acc₂
  | .reset _, .changed _ _ _ => False
  | .change _, .applied _ _ _ _ _ => False
  | _, _ => True

end Facts

abbrev PasswordGhost (c : Crates) : Type := (setting c).Ghost

/-- **The invariant of the password calls.** -/
structure PasswordsKept (c : Crates) (rows : List Record) (w : World)
    (gs : List (PasswordGhost c)) : Prop where
  slots : ∀ {d : Nat} {s : Slot Record}, w.db[d]? = some s →
    ∃ r, rows[d]? = some r ∧ RowSlot r s
  back : ∀ {d : Nat} {r : Record}, rows[d]? = some r → ∃ s, w.db[d]? = some s
  ledger : Ledger (setting c) PasswordPhase.held PasswordPhase.wrote w.db gs
  facts : ∀ {k : Nat} {g : PasswordGhost c}, gs[k]? = some g →
    PasswordFacts c rows w.db k g.call g.phase

/-! ### Every step keeps it -/

section Steps

variable {c : Crates} {rows : List Record} {w w' : World} {gs : List (PasswordGhost c)} {i : Nat}
  {g g' : PasswordGhost c}

theorem Updating.other {db db' : Table Record} {k me : Nat} {id : Uuid} {f : User → User}
    {is : List Nat} {acc : List (Nat × Record)} (h : Updating rows db k id f is acc)
    (he : Effect me db db') (hk : k ≠ me) : Updating rows db' k id f is acc := by
  rcases h with h | ⟨his, b, u, hacc, hat, hid, hp⟩
  · exact .inl h
  · exact .inr ⟨his, b, u, hacc, hat, hid, hp.other he hk⟩

theorem Updated.effect {db db' : Table Record} {k me : Nat} {id : Uuid} {f : User → User}
    {acc : List (Nat × Record)} (h : Updated rows db k id f acc) (he : Effect me db db') :
    Updated rows db' k id f acc := by
  obtain ⟨b, u, hacc, hat, hid, hw⟩ := h
  exact ⟨b, u, hacc, hat, hid, hw.effect he⟩

theorem Claimed.other {db db' : Table Record} {k me : Nat} {cmd : ConfirmPasswordResetCmd}
    {now : Time} {acc : List (Nat × Record)} {p : PasswordReset}
    (h : Claimed c rows db k cmd now acc p) (he : Effect me db db') (hk : k ≠ me) :
    Claimed c rows db' k cmd now acc p := by
  obtain ⟨hr, a, hacc, hrow, hp⟩ := h
  exact ⟨hr, a, hacc, hrow, hp.other he hk⟩

theorem Redeemed.effect {db db' : Table Record} {k me : Nat} {cmd : ConfirmPasswordResetCmd}
    {now : Time} {acc : List (Nat × Record)} {p : PasswordReset}
    (h : Redeemed c rows db k cmd now acc p) (he : Effect me db db') :
    Redeemed c rows db' k cmd now acc p := by
  obtain ⟨hr, a, hacc, hrow, hw⟩ := h
  exact ⟨hr, a, hacc, hrow, hw.effect he⟩

/-- What another call does leaves a call's facts as they are. -/
theorem PasswordFacts.other {db db' : Table Record} {k me : Nat} {call : PasswordCall}
    {ph : PasswordPhase} (h : PasswordFacts c rows db k call ph) (he : Effect me db db')
    (hk : k ≠ me) : PasswordFacts c rows db' k call ph := by
  cases call with
  | change cmd =>
      cases ph with
      | writing hash new is acc => exact ⟨h.1, h.2.other he hk⟩
      | changed hash new acc => exact ⟨h.1, h.2.effect he⟩
      | looked | hashed | applied => exact h
      | _ => trivial
  | reset cmd =>
      cases ph with
      | claiming now is acc =>
          rcases h with h | ⟨his, p, hp⟩
          · exact .inl h
          · exact .inr ⟨his, p, hp.other he hk⟩
      | rehashed now acc reset new =>
          obtain ⟨hs, p, hp, hreset⟩ := h
          exact ⟨hs, p, hp.other he hk, hreset⟩
      | applying now acc reset new is acc₂ =>
          obtain ⟨hs, ⟨p, hp, hreset⟩, hu⟩ := h
          exact ⟨hs, ⟨p, hp.other he hk, hreset⟩, hu.other he hk⟩
      | applied now acc reset new acc₂ =>
          obtain ⟨hs, ⟨p, hp, hreset⟩, hu⟩ := h
          exact ⟨hs, ⟨p, hp.effect he, hreset⟩, hu.effect he⟩
      | changed => exact h
      | _ => trivial

/-- Putting a step together: the effect, the rows, the ledger and the caller's own facts. -/
theorem PasswordsKept.next (hI : PasswordsKept c rows w gs) (hg : gs[i]? = some g)
    (he : Effect i w.db w'.db) (hlen : w'.db.length = w.db.length)
    (hslots : ∀ {d : Nat} {s s' : Slot Record} {r : Record}, w.db[d]? = some s →
      w'.db[d]? = some s' → RowSlot r s → RowSlot r s')
    (hledger : Ledger (setting c) PasswordPhase.held PasswordPhase.wrote w'.db (gs.set i g'))
    (hfacts : PasswordFacts c rows w'.db i g'.call g'.phase) :
    PasswordsKept c rows w' (gs.set i g') := by
  refine ⟨fun {d s'} hs' => ?_, fun {d r} hr => ?_, hledger, fun {k x} hk => ?_⟩
  · have hd : d < w.db.length := by
      rw [← hlen]
      exact (List.getElem?_eq_some_iff.mp hs').1
    obtain ⟨r, hr, hrow⟩ := hI.slots (List.getElem?_eq_getElem hd)
    exact ⟨r, hr, hslots (List.getElem?_eq_getElem hd) hs' hrow⟩
  · obtain ⟨s, hs⟩ := hI.back hr
    obtain ⟨s', hs', -⟩ := he.old hs
    exact ⟨s', hs'⟩
  · rcases get_set_cases hk with ⟨rfl, rfl⟩ | ⟨hne, hk⟩
    · exact hfacts
    · exact (hI.facts hk).other he hne

theorem PasswordsKept.same (hI : PasswordsKept c rows w gs) (hg : gs[i]? = some g)
    (hdb : w'.db = w.db) (hheld : g'.phase.held = g.phase.held ∨ g'.phase.held = none)
    (hwrote : ∀ x ∈ g.phase.wrote, x ∈ g'.phase.wrote)
    (hfacts : PasswordFacts c rows w.db i g'.call g'.phase) :
    PasswordsKept c rows w' (gs.set i g') := by
  refine hI.next hg (by rw [hdb]; exact .none) (by rw [hdb]) ?_ ?_ (by rw [hdb]; exact hfacts)
  · intro d s s' r hs hs' hrow
    rw [hdb, hs] at hs'
    cases hs'
    exact hrow
  · rw [hdb]
    exact hI.ledger.same hg hheld hwrote

theorem PasswordsKept.commit (hI : PasswordsKept c rows w gs) (hg : gs[i]? = some g)
    (hdb : w'.db = w.db.map (Slot.commit i)) {H : List (Nat × Option Record)}
    (hH : g.phase.held = some H) (hH' : g'.phase.held = some [])
    (hwrote : ∀ x ∈ g.phase.wrote, x ∈ g'.phase.wrote) (hnew : ∀ x ∈ H, x ∈ g'.phase.wrote)
    (hfacts : PasswordFacts c rows (w.db.map (Slot.commit i)) i g'.call g'.phase) :
    PasswordsKept c rows w' (gs.set i g') := by
  refine hI.next hg (by rw [hdb]; exact .commit) (by rw [hdb, List.length_map]) ?_ ?_
    (by rw [hdb]; exact hfacts)
  · intro d s s' r hs hs' hrow
    rw [hdb, List.getElem?_map, hs] at hs'
    cases hs'
    exact hrow.commit
  · rw [hdb]
    exact hI.ledger.commit hg hH hH' hwrote hnew

theorem PasswordsKept.rollback (hI : PasswordsKept c rows w gs) (hg : gs[i]? = some g)
    (hdb : w'.db = w.db.map (Slot.rollback i)) (hH' : g'.phase.held = some [])
    (hwrote : ∀ x ∈ g.phase.wrote, x ∈ g'.phase.wrote)
    (hfacts : PasswordFacts c rows (w.db.map (Slot.rollback i)) i g'.call g'.phase) :
    PasswordsKept c rows w' (gs.set i g') := by
  refine hI.next hg (by rw [hdb]; exact .rollback) (by rw [hdb, List.length_map]) ?_ ?_
    (by rw [hdb]; exact hfacts)
  · intro d s s' r hs hs' hrow
    rw [hdb, List.getElem?_map, hs] at hs'
    cases hs'
    exact hrow.rollback
  · rw [hdb]
    exact hI.ledger.rollback hg (fun H hH => Option.some.inj (hH.symm.trans hH')) hwrote

theorem PasswordsKept.take (hI : PasswordsKept c rows w gs) (hg : gs[i]? = some g) {d : Nat}
    {s : Slot Record} {a new : Record} (hs : w.db[d]? = some s) (hfree : s.free i = true)
    (hview : s.view i = some a) (hdb : w'.db = w.db.set d (s.hold i (some new)))
    {H : List (Nat × Option Record)} (hH : g.phase.held = some H)
    (hH' : g'.phase.held = some (H ++ [(d, some new)])) (hd : ∀ v, (d, v) ∉ H)
    (hwrote : ∀ x ∈ g.phase.wrote, x ∈ g'.phase.wrote)
    (hrow : ∀ r, rows[d]? = some r → RowSlot r s → RowSlot r (s.hold i (some new)))
    (hfacts : PasswordFacts c rows (w.db.set d (s.hold i (some new))) i g'.call g'.phase) :
    PasswordsKept c rows w' (gs.set i g') := by
  refine ⟨fun {d' s'} hs' => ?_, fun {d' r} hr => ?_, ?_, fun {k x} hk => ?_⟩
  · rw [hdb] at hs'
    rcases get_set_cases hs' with ⟨rfl, rfl⟩ | ⟨-, hold⟩
    · obtain ⟨r, hr, hslot⟩ := hI.slots hs
      exact ⟨r, hr, hrow r hr hslot⟩
    · exact hI.slots hold
  · obtain ⟨s', hs'⟩ := hI.back hr
    rw [hdb]
    obtain ⟨s'', hs'', -⟩ := (Effect.hold hs hfree hview : Effect i w.db
      (w.db.set d (s.hold i (some new)))).old hs'
    exact ⟨s'', hs''⟩
  · rw [hdb]
    exact hI.ledger.take hg hs hfree hview hH hH' hd hwrote
  · rcases get_set_cases hk with ⟨rfl, rfl⟩ | ⟨hne, hk⟩
    · rw [hdb]
      exact hfacts
    · rw [hdb]
      exact (hI.facts hk).other (.hold hs hfree hview) hne

/-- A call that is over, or has not begun to write, holds nothing. -/
theorem PasswordsKept.holds_nothing (hI : PasswordsKept c rows w gs) (hg : gs[i]? = some g)
    (hheld : g.phase.held = some []) (d : Nat) (v : Option Record) : ¬ w.db.Locked i d v :=
  fun hl => by cases (hI.ledger.holds hg hheld d v).mp hl

/-- A row one can take and does not hold is not locked. -/
theorem PasswordsKept.unlocked (hI : PasswordsKept c rows w gs) (hg : gs[i]? = some g) {d : Nat}
    {s : Slot Record} (hs : w.db[d]? = some s) (hfree : s.free i = true)
    {H : List (Nat × Option Record)} (hH : g.phase.held = some H) (hd : ∀ v, (d, v) ∉ H) :
    s.lock = none := by
  rcases Slot.free_iff.mp hfree with hn | ⟨v, hl⟩
  · exact hn
  · exact absurd ((hI.ledger.holds hg hH d v).mp ⟨s, hs, hl⟩) (hd v)

/-- Looking for a user finds that user's row and no other. -/
theorem PasswordsKept.matching_user (hI : PasswordsKept c rows w gs) (hschema : Schema rows)
    {b : Nat} {id : Uuid} (hb : UserAt rows b id) (me : Nat) :
    SqlOp.matching me (users.sel (UserIs id)) w.db = [b] := by
  obtain ⟨u₀, hu₀, rfl⟩ := hb
  obtain ⟨s, hs⟩ := hI.back hu₀
  have hhits : ∀ {d s' u}, w.db[d]? = some s' → s'.view me = some (.user u) → u.id = u₀.id →
      d = b := by
    intro d s' u hs' hv hid
    obtain ⟨r, hr, hrow⟩ := hI.slots hs'
    obtain ⟨u₁, rfl, hid₁⟩ := hrow.of_user hv
    exact hschema.user_ids hr hu₀ (hid₁.symm.trans hid)
  refine matching_eq_singleton hs ?_ ?_
  · obtain ⟨r, hr, hrow⟩ := hI.slots hs
    obtain rfl : r = .user u₀ := Option.some.inj (hr.symm.trans hu₀)
    obtain ⟨u, hu, hid⟩ := UserSlot.view hrow me
    simp [Slot.hits, hu, Relation.sel, users, UserIs, hid]
  · intro d s' hs' hit
    unfold Slot.hits at hit
    cases hv : s'.view me with
    | none => simp [hv] at hit
    | some a =>
        rw [hv, Option.any_some] at hit
        obtain ⟨u, rfl, hid⟩ := (users.sel_iff).mp hit
        exact hhits hs' hv (by simpa [UserIs] using hid)

/-- One row of `UPDATE users SET f WHERE id = ..`: the caller takes it. -/
theorem PasswordsKept.visit_user (hI : PasswordsKept c rows w gs) (hg : gs[i]? = some g) {ch : Choice}
    {id : Uuid} {f : User → User} {b : Nat} (hb : UserAt rows b id) {out : List Record}
    (hans : World.answer c i (.sql (.visit b (users.sel (UserIs id)) (users.set f))) ch w =
      some (w', Except.ok out)) (hf : ∀ u, (f u).id = u.id)
    {H : List (Nat × Option Record)} (hH : g.phase.held = some H) (hd : ∀ v, (b, v) ∉ H) :
    ∃ u s, out = [.user (f u)] ∧ u.id = id ∧ w.db[b]? = some s ∧ s.free i = true ∧
      s.view i = some (.user u) ∧ w'.db = w.db.set b (s.hold i (some (.user (f u)))) ∧
      Table.Pending (w.db.set b (s.hold i (some (.user (f u))))) i b (.user u) (.user (f u)) ∧
      ∀ r, rows[b]? = some r → RowSlot r s → RowSlot r (s.hold i (some (.user (f u)))) := by
  obtain ⟨u₀, hu₀, rfl⟩ := hb
  obtain ⟨s, hs⟩ := hI.back hu₀
  obtain ⟨r, hr, hrow⟩ := hI.slots hs
  obtain rfl : r = .user u₀ := Option.some.inj (hr.symm.trans hu₀)
  obtain ⟨u, hview, hid⟩ := UserSlot.view hrow i
  have hhit : s.hits i (users.sel (UserIs u₀.id)) = true := by
    simp [Slot.hits, hview, Relation.sel, users, UserIs, hid]
  rcases World.answer_visit hans with ⟨-, hr' | ⟨-, hno⟩⟩ | ⟨s', a, hs', hfree, hview', -, hdb, hr'⟩
  · cases hr'
  · rw [(hno s hs).2] at hhit
    cases hhit
  · obtain rfl : s = s' := Option.some.inj (hs.symm.trans hs')
    obtain rfl : Record.user u = a := Option.some.inj (hview.symm.trans hview')
    have hfu : users.set f (.user u) = some (.user (f u)) := rfl
    rw [hfu] at hdb hr'
    refine ⟨u, s, Except.ok.inj hr', hid, hs, hfree, hview, hdb,
      Table.Pending.hold hs (hI.unlocked hg hs hfree hH hd) hview, ?_⟩
    intro r' hr₂ hrow'
    obtain rfl : r' = .user u₀ := Option.some.inj (hr₂.symm.trans hu₀)
    exact UserSlot.hold hrow' ((hf u).trans hid)

/-- Only one reset has the token's hash. -/
theorem PasswordsKept.matching_reset (hI : PasswordsKept c rows w gs) (hschema : Schema rows)
    (hash : String) (now : Time) (me : Nat) :
    (SqlOp.matching me (password_resets.sel (Redeemable hash now)) w.db).length ≤ 1 := by
  have hhit : ∀ {d : Nat} {s : Slot Record}, w.db[d]? = some s →
      s.hits me (password_resets.sel (Redeemable hash now)) = true →
      ∃ p, rows[d]? = some (.password_reset p) ∧ p.token_hash = hash := by
    intro d s hs hit
    obtain ⟨r, hr, hrow⟩ := hI.slots hs
    unfold Slot.hits at hit
    cases hv : s.view me with
    | none => simp [hv] at hit
    | some a =>
        rw [hv, Option.any_some] at hit
        obtain ⟨q, rfl, hq⟩ := password_resets.sel_iff.mp hit
        obtain ⟨p, rfl⟩ := hrow.of_reset hv
        obtain ⟨rfl, -⟩ := ResetSlot.of_redeemable hrow hv hq
        exact ⟨q, hr, redeemable_hash hq⟩
  refine matching_length_le_one ?_
  intro a b s s' hs hit hs' hit'
  obtain ⟨p, hp, hash₁⟩ := hhit hs hit
  obtain ⟨q, hq, hash₂⟩ := hhit hs' hit'
  exact hschema.reset_hashes hp hq (hash₁.trans hash₂.symm)

/-- One row of `UPDATE password_resets ..`: the caller takes it if it can still be redeemed. -/
theorem PasswordsKept.visit_reset (hI : PasswordsKept c rows w gs) (hg : gs[i]? = some g)
    {ch : Choice} {hash : String} {now : Time} {a : Nat} {out : List Record}
    (hans : World.answer c i (.sql (.visit a (password_resets.sel (Redeemable hash now))
      (password_resets.set (·.spent)))) ch w = some (w', Except.ok out))
    {H : List (Nat × Option Record)} (hH : g.phase.held = some H) (hd : ∀ v, (a, v) ∉ H) :
    (w'.db = w.db ∧ out = []) ∨
      ∃ p s, out = [.password_reset p.spent] ∧ Redeemable hash now p = true ∧
        rows[a]? = some (.password_reset p) ∧ w.db[a]? = some s ∧ s.free i = true ∧
        s.view i = some (.password_reset p) ∧
        w'.db = w.db.set a (s.hold i (some (.password_reset p.spent))) ∧
        Table.Pending (w.db.set a (s.hold i (some (.password_reset p.spent)))) i a
          (.password_reset p) (.password_reset p.spent) ∧
        ∀ r, rows[a]? = some r → RowSlot r s →
          RowSlot r (s.hold i (some (.password_reset p.spent))) := by
  rcases World.answer_visit hans with ⟨hdb, hr | ⟨hr, -⟩⟩ | ⟨s, q, hs, hfree, hview, hq, hdb, hr⟩
  · cases hr
  · exact .inl ⟨hdb, Except.ok.inj hr⟩
  · obtain ⟨q, rfl, hq⟩ := password_resets.sel_iff.mp hq
    obtain ⟨r, hrow, hslot⟩ := hI.slots hs
    obtain ⟨p, rfl⟩ := hslot.of_reset hview
    obtain ⟨rfl, hversions⟩ := ResetSlot.of_redeemable hslot hview hq
    rw [Relation.set_inj] at hdb hr
    refine .inr ⟨q, s, Except.ok.inj hr, hq, hrow, hs, hfree, hview, hdb,
      Table.Pending.hold hs (hI.unlocked hg hs hfree hH hd) hview, ?_⟩
    intro r' hr' hslot'
    obtain rfl : r' = .password_reset q := Option.some.inj (hr'.symm.trans hrow)
    exact ResetSlot.hold hversions

/-- The user a `SELECT` found has a row. -/
theorem PasswordsKept.user_of_select (hI : PasswordsKept c rows w gs) {me : Nat} {id : Uuid}
    {u : User} {us : List User}
    (hu : ((w.db.filterMap (Slot.view me)).filter (users.sel (UserIs id))).filterMap users.prj =
      u :: us) :
    ∃ b s, w.db[b]? = some s ∧ s.view me = some (.user u) ∧ UserAt rows b id ∧ u.id = id := by
  have hmem : u ∈ ((w.db.filterMap (Slot.view me)).filter (users.sel (UserIs id))).filterMap
      users.prj := by
    rw [hu]
    exact List.mem_cons_self
  obtain ⟨r, hr, hprj⟩ := List.mem_filterMap.mp hmem
  obtain rfl : r = .user u := users.inj_of_prj hprj
  obtain ⟨hview, hsel⟩ := List.mem_filter.mp hr
  obtain ⟨s, hs, hv⟩ := List.mem_filterMap.mp hview
  obtain ⟨b, hb⟩ := List.mem_iff_getElem?.mp hs
  have hid : u.id = id := by simpa [Relation.sel, users, UserIs] using hsel
  obtain ⟨r, hrow, hslot⟩ := hI.slots hb
  obtain ⟨u₀, rfl, hid₀⟩ := hslot.of_user hv
  exact ⟨b, s, hb, hv, ⟨u₀, hrow, hid₀.symm.trans hid⟩, hid⟩

/-- A step of `change_password`. -/
theorem PasswordsKept.change_step (hschema : Schema rows) (hI : PasswordsKept c rows w gs)
    {cmd : ChangePasswordCmd} (hg : gs[i]? = some g) (hcall : g.call = .change cmd) {ch : Choice}
    {o : Op} {r : o.Reply} {ph : PasswordPhase} (hans : World.answer c i o ch w = some (w', r))
    (hstep : PasswordStep c (.change cmd) g.phase o r ph) :
    PasswordsKept c rows w' (gs.set i ⟨g.call, ⟨o, r⟩ :: g.log, ph⟩) := by
  have hf := hI.facts hg
  obtain ⟨call, log, phase⟩ := g
  obtain rfl : call = .change cmd := hcall
  cases hstep with
  | read =>
      obtain ⟨rfl, hr⟩ := World.answer_select hans
      refine hI.same hg rfl (.inl rfl) (fun x hx => hx) ?_
      intro u us hus
      rcases hr with hr | hr
      · obtain rfl := Except.ok.inj hr
        obtain ⟨b, s, -, -, hb, -⟩ := hI.user_of_select hus
        exact ⟨b, hb⟩
      · cases hr
  | read_fails =>
      obtain ⟨rfl, -⟩ := World.answer_select hans
      exact hI.same hg rfl (.inl rfl) (fun x hx => hx) trivial
  | hash hrows hv =>
      obtain ⟨rfl, ⟨salt, hr⟩ | hr⟩ := World.answer_bcrypt_hash hans
      · exact hI.same hg rfl (.inl rfl) (fun x hx => hx)
          ⟨⟨salt, Except.ok.inj hr⟩, hf _ _ hrows⟩
      · cases hr
  | hash_fails =>
      obtain ⟨rfl, -⟩ := World.answer_bcrypt_hash hans
      exact hI.same hg rfl (.inl rfl) (fun x hx => hx) trivial
  | scan =>
      obtain ⟨hsalt, b, hb⟩ := hf
      obtain ⟨rfl, rfl⟩ := World.answer_scanned hans
      exact hI.same hg rfl (.inl rfl) (fun x hx => hx)
        ⟨hsalt, .inl ⟨rfl, b, hI.matching_user hschema hb i, hb⟩⟩
  | scan_fails =>
      obtain ⟨rfl, -⟩ := World.answer_scan hans
      exact hI.same hg rfl (.inr rfl) (fun x hx => hx) trivial
  | visit =>
      obtain ⟨hsalt, ⟨rfl, b, hb, hat⟩ | ⟨hnil, -⟩⟩ := hf
      · obtain ⟨rfl, rfl⟩ := List.cons.inj hb
        obtain ⟨u, s, rfl, hid, hs, hfree, hview, hdb, hp, hrow⟩ :=
          hI.visit_user hg hat hans (fun _ => rfl) rfl (not_mem_marks_nil _)
        exact hI.take hg hs hfree hview hdb rfl rfl (not_mem_marks_nil _) (fun x hx => hx) hrow
          ⟨hsalt, .inr ⟨rfl, _, u, rfl, hat, hid, hp⟩⟩
      · cases hnil
  | visit_fails =>
      have hdb := World.answer_visit_failed hans
      exact hI.same hg hdb (.inr rfl) (fun x hx => hx) trivial
  | commit =>
      obtain ⟨hsalt, ⟨-, b, hb, -⟩ | ⟨-, b, u, rfl, hat, hid, hp⟩⟩ := hf
      · cases hb
      · have hdb := World.answer_committed hans
        exact hI.commit hg hdb rfl rfl (fun x hx => by cases hx) (fun x hx => hx)
          ⟨hsalt, b, u, rfl, hat, hid, hp.commit⟩
  | commit_fails =>
      have hdb := World.answer_commit_failed hans
      exact hI.rollback hg hdb rfl (fun x hx => hx) trivial
  | drop => exact hI.rollback hg (World.answer_rollback hans) rfl (fun x hx => hx) trivial
  | dropped => exact hI.rollback hg (World.answer_rollback hans) rfl (fun x hx => hx) trivial

/-- A step of `confirm_password_reset`. -/
theorem PasswordsKept.reset_step (hschema : Schema rows) (hI : PasswordsKept c rows w gs)
    {cmd : ConfirmPasswordResetCmd} (hg : gs[i]? = some g) (hcall : g.call = .reset cmd)
    {ch : Choice} {o : Op} {r : o.Reply} {ph : PasswordPhase}
    (hans : World.answer c i o ch w = some (w', r))
    (hstep : PasswordStep c (.reset cmd) g.phase o r ph) :
    PasswordsKept c rows w' (gs.set i ⟨g.call, ⟨o, r⟩ :: g.log, ph⟩) := by
  have hf := hI.facts hg
  obtain ⟨call, log, phase⟩ := g
  obtain rfl : call = .reset cmd := hcall
  cases hstep with
  | clock =>
      obtain ⟨-, rfl⟩ := World.answer_now hans
      exact hI.same hg rfl (.inl rfl) (fun x hx => hx) trivial
  | begin | begin_fails =>
      obtain rfl := World.answer_begin hans
      exact hI.same hg rfl (.inl rfl) (fun x hx => hx) trivial
  | scan_resets =>
      obtain ⟨rfl, rfl⟩ := World.answer_scanned hans
      exact hI.same hg rfl (.inl rfl) (fun x hx => hx)
        (.inl ⟨rfl, hI.matching_reset hschema _ _ i⟩)
  | scan_resets_fails | scan_owner_fails =>
      obtain ⟨rfl, -⟩ := World.answer_scan hans
      exact hI.same hg rfl (.inr rfl) (fun x hx => hx) trivial
  | claim =>
      rcases hf with ⟨rfl, hlen⟩ | ⟨hnil, -⟩
      · obtain rfl := List.eq_nil_of_length_eq_zero (Nat.le_zero.mp (Nat.le_of_succ_le_succ hlen))
        rcases hI.visit_reset hg hans rfl (not_mem_marks_nil _) with ⟨hdb, rfl⟩ |
          ⟨p, s, rfl, hp, hrow, hs, hfree, hview, hdb, hpend, hslot⟩
        · exact hI.same hg hdb (.inl rfl) (fun x hx => hx) (.inl ⟨rfl, Nat.zero_le 1⟩)
        · exact hI.take hg hs hfree hview hdb rfl rfl (not_mem_marks_nil _) (fun x hx => hx) hslot
            (.inr ⟨rfl, p, hp, _, rfl, hrow, hpend⟩)
      · cases hnil
  | claim_fails | apply_fails =>
      have hdb := World.answer_visit_failed hans
      exact hI.same hg hdb (.inr rfl) (fun x hx => hx) trivial
  | rehash hrows =>
      obtain ⟨rfl, ⟨salt, hr⟩ | hr⟩ := World.answer_bcrypt_hash hans
      · rcases hf with ⟨rfl, -⟩ | ⟨-, p, hp⟩
        · cases hrows
        · obtain ⟨hq, a, rfl, hrow, hpend⟩ := hp
          obtain ⟨rfl, -⟩ := List.cons.inj hrows
          exact hI.same hg rfl (.inl rfl) (fun x hx => hx)
            ⟨⟨salt, Except.ok.inj hr⟩, p, ⟨hq, a, rfl, hrow, hpend⟩, rfl⟩
      · cases hr
  | rehash_fails =>
      obtain ⟨rfl, -⟩ := World.answer_bcrypt_hash hans
      exact hI.same hg rfl (.inr rfl) (fun x hx => hx) trivial
  | scan_owner =>
      obtain ⟨hsalt, p, hp, rfl⟩ := hf
      obtain ⟨b, u, hb, hid⟩ := hschema.owners hp.2.choose_spec.2.1
      have hat : UserAt rows b p.spent.user_id := ⟨u, hb, hid⟩
      obtain ⟨rfl, rfl⟩ := World.answer_scanned hans
      refine hI.same hg rfl (.inl ?_) (fun x hx => hx)
        ⟨hsalt, ⟨p, hp, rfl⟩, .inl ⟨rfl, b, hI.matching_user hschema hat i, hat⟩⟩
      exact congrArg some (List.append_nil _)
  | @apply _ _ _ _ _ _ d _ _ =>
      obtain ⟨hsalt, ⟨p, hp, rfl⟩, ⟨rfl, b, hb, hat⟩ | ⟨hnil, -⟩⟩ := hf
      · obtain ⟨rfl, rfl⟩ := List.cons.inj hb
        obtain ⟨hq, a, rfl, hrow, hpend⟩ := hp
        have hne : d ≠ a := fun hab => by
          obtain ⟨u, hu, -⟩ := hat
          rw [hab, hrow] at hu
          cases hu
        have hfresh : ∀ v, (d, v) ∉ marks [(a, .password_reset p.spent)] ++ marks [] := fun v hv =>
          hne (by simpa [marks] using congrArg Prod.fst (List.mem_singleton.mp hv))
        obtain ⟨u, s, rfl, hid, hs, hfree, hview, hdb, hpend₂, hslot⟩ :=
          hI.visit_user hg hat hans (fun _ => rfl) rfl hfresh
        exact hI.take hg hs hfree hview hdb rfl rfl hfresh (fun x hx => hx) hslot
          ⟨hsalt, ⟨p, ⟨hq, a, rfl, hrow, hpend.set_other hne⟩, rfl⟩,
            .inr ⟨rfl, _, u, rfl, hat, hid, hpend₂⟩⟩
      · cases hnil
  | commit_reset =>
      obtain ⟨hsalt, ⟨p, ⟨hq, a, rfl, hrow, hpend⟩, rfl⟩,
        ⟨-, b, hb, -⟩ | ⟨-, b, u, rfl, hat, hid, hp⟩⟩ := hf
      · cases hb
      · have hdb := World.answer_committed hans
        exact hI.commit hg hdb rfl rfl (fun x hx => by cases hx) (fun x hx => hx)
          ⟨hsalt, ⟨p, ⟨hq, a, rfl, hrow, hpend.commit⟩, rfl⟩, b, u, rfl, hat, hid, hp.commit⟩
  | commit_reset_fails =>
      have hdb := World.answer_commit_failed hans
      exact hI.rollback hg hdb rfl (fun x hx => hx) trivial
  | unclaimed | drop | dropped =>
      exact hI.rollback hg (World.answer_rollback hans) rfl (fun x hx => hx) trivial
  | drop_applied =>
      obtain ⟨hsalt, ⟨p, hp, rfl⟩, hu⟩ := hf
      exact hI.rollback hg (World.answer_rollback hans) rfl (fun x hx => hx)
        ⟨hsalt, ⟨p, hp.effect .rollback, rfl⟩, hu.effect .rollback⟩

theorem PasswordsKept.spawn (hI : PasswordsKept c rows w gs) (call : PasswordCall) :
    PasswordsKept c rows w (gs ++ [⟨call, [], .start⟩]) := by
  refine ⟨hI.slots, hI.back, hI.ledger.spawn fun H hH => (Option.some.inj hH).symm, ?_⟩
  intro k g hk
  rcases get_snoc_cases hk with ⟨-, rfl⟩ | hk
  · cases call <;> trivial
  · exact hI.facts hk

theorem PasswordsKept.move (hschema : Schema rows) {cfg : PasswordConfig}
    {ev : Basis.Event Choice PasswordCall Expiry} {gs' : List (PasswordGhost c)}
    (hI : PasswordsKept c rows cfg.shared gs)
    (hmv : Protocol.Move (passwords c) (setting c) cfg gs ev w' gs') :
    PasswordsKept c rows w' gs' := by
  cases hmv with
  | spawn call => exact hI.spawn call
  | step hg hcall hnext hans hstep =>
      rename_i g o r ph
      cases hc : g.call with
      | change cmd =>
          rw [hc] at hstep
          simpa only [hc] using hI.change_step hschema hg hc hans hstep
      | reset cmd =>
          rw [hc] at hstep
          simpa only [hc] using hI.reset_step hschema hg hc hans hstep
  | env e =>
      obtain ⟨hslots, hback, hledger, hfacts⟩ := hI
      change PasswordsKept c rows (cfg.shared.expire e) gs
      rw [← World.expire_db e cfg.shared] at hslots hback hledger hfacts
      exact ⟨hslots, hback, hledger, hfacts⟩

end Steps

theorem passwords_start (c : Crates) {rows : List Record} {w : World}
    (hw : w.db = rows.map Slot.loaded) : PasswordsKept c rows w [] := by
  refine ⟨?_, ?_, by rw [hw]; exact .start rows, by simp⟩
  · intro d s hs
    rw [hw, List.getElem?_map] at hs
    obtain ⟨r, hr, rfl⟩ := Option.map_eq_some_iff.mp hs
    exact ⟨r, hr, .loaded r⟩
  · intro d r hr
    exact ⟨Slot.loaded r, by rw [hw, List.getElem?_map, hr]; rfl⟩

/-- **After any run, every call is in a phase the invariant speaks about.** -/
theorem passwords_kept (c : Crates) {rows : List Record} (hschema : Schema rows) {w : World}
    (hw : w.db = rows.map Slot.loaded) {evs : List (Basis.Event Choice PasswordCall Expiry)}
    {cfg : PasswordConfig} (hrun : (passwords c).run ⟨w, []⟩ evs = some cfg) :
    ∃ gs, Protocol.Tracked (setting c) cfg gs ∧ PasswordsKept c rows cfg.shared gs :=
  Protocol.run_tracks (C := fun _ _ => True) (setting_follows c) (PasswordsKept c rows)
    (fun _ _ _ _ _ _ hI _ hmv => hI.move hschema hmv)
    ⟨[], Protocol.tracked_nil _ w, passwords_start c hw⟩ (System.along_true _ _ _) hrun

end Authnz
