/-
Signature counters under concurrency.

A login that has passed verification loads the account's credentials, raises the
counter of the one that was used on its copy and writes the whole copy back.  The
`UPDATE` names the credential and nothing else, so it also overwrites what another
login has written since the copy was loaded: `counter_goes_back` is such a schedule.

What does hold is `counters_never_go_back`.  As long as nothing fails and no login
takes the row after one that asserted a larger counter has written it, the stored
counter never decreases and is at least what every login that returned asserted.
-/
import Authnz.Basis.Books
import Authnz.Proofs.Passkeys
import Authnz.Proofs.Walking

namespace Authnz

open Basis

/-- A login that has passed verification: the account, and what the assertion says. -/
structure AssertedLogin where
  user_id : Uuid
  result : AuthenticationResult
  deriving DecidableEq

section System

variable {Reg Cred : Type}

/-- Any number of such logins at once, at the part that writes the counter back. -/
abbrev counting (c : Crates) (wa : Webauthn Reg Cred) :
    System Op Op.Reply Choice World AssertedLogin Expiry Unit :=
  service c fun call => passkey_login.refresh_counter wa call.user_id call.result

end System

abbrev CounterConfig : Type := Config Op Op.Reply World AssertedLogin Unit

/-- What is assumed of `update_credential`: it raises the counter in hand to the asserted one
exactly when that is larger, and says so.  A credential can be stored and survives it. -/
structure Webauthn.CountsUp {Reg Cred : Type} (wa : Webauthn Reg Cred) : Prop where
  update : ∀ {k : Passkey} {result : AuthenticationResult}, k.cred_id = result.cred_id →
    ∃ k', wa.update_credential k result = some (decide (k.counter < result.counter), k') ∧
      k'.cred_id = k.cred_id ∧ k'.counter = max k.counter result.counter
  serde : ∀ k : Passkey, ∃ data, wa.to_string k = some data ∧ wa.from_str data = some k

/-! ### What is claimed, and when it holds -/

section Claims

variable {Reg Cred : Type} (wa : Webauthn Reg Cred)

/-- The credential in a row. -/
def stored_passkey (r : Record) : Option Passkey :=
  (passkey_credentials.prj r).bind fun p => wa.from_str p.passkey_data

/-- The counter committed in row `d`. -/
def stored_counter (w : World) (d : Nat) : Option Nat :=
  ((w.db[d]?.bind Slot.current).bind (stored_passkey wa)).map Passkey.counter

/-- The rows are what registrations leave: every credential can be read, is filed under its id,
and no two rows have the same id. -/
structure StoredPasskeys (rows : List Record) : Prop where
  filed : ∀ {d : Nat} {p : PasskeyCredential}, rows[d]? = some (.passkey_credential p) →
    ∃ k, wa.from_str p.passkey_data = some k ∧ p.credential_id = credential_id_b64 k
  unique : ∀ {d d' : Nat} {p p' : PasskeyCredential}, rows[d]? = some (.passkey_credential p) →
    rows[d']? = some (.passkey_credential p') → p.credential_id = p'.credential_id → d = d'

/-- The login asserts the credential in this row. -/
def Asserts (rows : List Record) (d : Nat) (call : AssertedLogin) : Prop :=
  ∃ p k, rows[d]? = some (.passkey_credential p) ∧ p.user_id = call.user_id ∧
    wa.from_str p.passkey_data = some k ∧ k.cred_id = call.result.cred_id

end Claims

/-- What login `i` asserts. -/
def asserted (cfg : CounterConfig) (i : Nat) : Nat :=
  ((cfg.call i).map fun call => call.result.counter).getD 0

/-- The call that has written the row as it is now. -/
def last_writer (w : World) (d : Nat) : Option Nat :=
  (w.db[d]?.bind fun s => s.versions.head?).bind (·.writer)

/-- No operation of a login fails. -/
def nothing_fails (ev : Basis.Event Choice AssertedLogin Expiry) : Bool :=
  match ev with
  | .step _ ch => ch != .fail
  | _ => true

/-- A login takes a row only if the one that wrote it last asserted no larger counter. -/
def no_larger_before (cfg : CounterConfig) (ev : Basis.Event Choice AssertedLogin Expiry) : Bool :=
  match ev with
  | .step i _ =>
      match cfg.next i with
      | some (.sql (.visit d _ _)) =>
          (last_writer cfg.shared d).all fun j => decide (asserted cfg j ≤ asserted cfg i)
      | _ => true
  | _ => true

/-- From `cfg` to `cfg'` no stored counter has gone back, and it has come up to what every login
that has returned asserted. -/
structure CountersUp {Reg Cred : Type} (wa : Webauthn Reg Cred) (rows : List Record)
    (cfg cfg' : CounterConfig) : Prop where
  rising : ∀ {d : Nat} {p : PasskeyCredential}, rows[d]? = some (.passkey_credential p) →
    ∃ n n', stored_counter wa cfg.shared d = some n ∧ stored_counter wa cfg'.shared d = some n' ∧
      n ≤ n'
  reached : ∀ {i d : Nat} {call : AssertedLogin}, cfg'.call i = some call →
    cfg'.result i = some () → Asserts wa rows d call →
    ∃ n, stored_counter wa cfg'.shared d = some n ∧ call.result.counter ≤ n

/-! ### The calls, in phases -/

def OwnedBy (user_id : Uuid) : PasskeyCredential → Bool := fun p => p.user_id == user_id

def FiledUnder (credential_id : String) : PasskeyCredential → Bool := fun p =>
  p.credential_id == credential_id

inductive CounterPhase where
  | start
  | bad
  | closed
  /-- The login has loaded these rows. -/
  | loaded (rows : List Record)
  /-- It has `k` to write back. -/
  | timed (k : Passkey) (data : String) (now : Time)
  | writing (k : Passkey) (data : String) (now : Time) (is : List Nat) (acc : List (Nat × Record))
  | written (k : Passkey) (acc : List (Nat × Record))

section Protocol

variable {Reg Cred : Type} (wa : Webauthn Reg Cred)

/-- What the login writes back, having loaded these rows. -/
def refreshed (rows : List Record) (result : AuthenticationResult) : Option Passkey := do
  let credentials ← (rows.filterMap passkey_credentials.prj).mapM fun p =>
    wa.from_str p.passkey_data
  let k ← credentials.find? fun k => k.cred_id == result.cred_id
  match wa.update_credential k result with
  | some (true, k') => some k'
  | _ => none

inductive CounterStep : AssertedLogin → CounterPhase → (o : Op) → o.Reply → CounterPhase → Prop
  | load {call : AssertedLogin} {rows : List Record} :
      CounterStep call .start (.sql (.select (passkey_credentials.sel (OwnedBy call.user_id))))
        (Except.ok rows) (.loaded rows)
  | load_fails {call : AssertedLogin} {e : DbError} :
      CounterStep call .start (.sql (.select (passkey_credentials.sel (OwnedBy call.user_id))))
        (Except.error e) .closed
  | clock {call : AssertedLogin} {rows : List Record} {k : Passkey} {data : String} {now : Time}
      (hk : refreshed wa rows call.result = some k) (hdata : wa.to_string k = some data) :
      CounterStep call (.loaded rows) .now now (.timed k data now)
  | scan {call : AssertedLogin} {k : Passkey} {data : String} {now : Time} {is : List Nat} :
      CounterStep call (.timed k data now)
        (.sql (.scan (passkey_credentials.sel (FiledUnder (credential_id_b64 k)))))
        (Except.ok is) (.writing k data now is [])
  | scan_fails {call : AssertedLogin} {k : Passkey} {data : String} {now : Time} {e : DbError} :
      CounterStep call (.timed k data now)
        (.sql (.scan (passkey_credentials.sel (FiledUnder (credential_id_b64 k)))))
        (Except.error e) .bad
  | visit {call : AssertedLogin} {k : Passkey} {data : String} {now : Time} {i : Nat}
      {is : List Nat} {acc : List (Nat × Record)} {rows : List Record} :
      CounterStep call (.writing k data now (i :: is) acc)
        (.sql (.visit i (passkey_credentials.sel (FiledUnder (credential_id_b64 k)))
          (passkey_credentials.set (·.recounted data now))))
        (Except.ok rows) (.writing k data now is (acc ++ rows.map fun x => (i, x)))
  | visit_fails {call : AssertedLogin} {k : Passkey} {data : String} {now : Time} {i : Nat}
      {is : List Nat} {acc : List (Nat × Record)} {e : DbError} :
      CounterStep call (.writing k data now (i :: is) acc)
        (.sql (.visit i (passkey_credentials.sel (FiledUnder (credential_id_b64 k)))
          (passkey_credentials.set (·.recounted data now))))
        (Except.error e) .bad
  | commit {call : AssertedLogin} {k : Passkey} {data : String} {now : Time}
      {acc : List (Nat × Record)} :
      CounterStep call (.writing k data now [] acc) (.sql .commit) (Except.ok ()) (.written k acc)
  | commit_fails {call : AssertedLogin} {k : Passkey} {data : String} {now : Time}
      {acc : List (Nat × Record)} {e : DbError} :
      CounterStep call (.writing k data now [] acc) (.sql .commit) (Except.error e) .closed
  | drop {call : AssertedLogin} : CounterStep call .bad (.sql .rollback) () .closed

/-- Writing a counter back, as a protocol. -/
abbrev recounting : Protocol Op Op.Reply AssertedLogin Unit where
  Phase := CounterPhase
  start _ := .start
  Step := CounterStep wa
  Final call ph _ := ph = .closed ∨ (∃ k acc, ph = .written k acc) ∨
    ∃ rows, ph = .loaded rows ∧ ∀ k, refreshed wa rows call.result = some k → wa.to_string k = none

theorem CounterStep.part {call : AssertedLogin} {ph ph' : CounterPhase} {o : Op} {r : o.Reply}
    (h : CounterStep wa call ph o r ph') : World.Part o := by
  cases h <;> first
    | exact .quiet trivial
    | exact .sql (by constructor)

theorem recounting_follows (c : Crates) (call : AssertedLogin) :
    (recounting wa).Follows call ((counting c wa).code call) := by
  change Goes (recounting wa) _ (passkey_login.refresh_counter wa call.user_id call.result) _ _
  unfold passkey_login.refresh_counter
  refine goes_run ?_
  unfold CredsRepo.credentials_for_user
  refine goesE_bind (goesE_select (fun rows => .load) (fun e => .load_fails) (fun rows => ?_)
    (fun e => .inl rfl))
  have hrefreshed : ∀ {k}, refreshed wa rows call.result = some k → ∃ credentials cred,
      ((rows.filterMap passkey_credentials.prj).mapM fun p => wa.from_str p.passkey_data) =
        some credentials ∧
      credentials.find? (fun k => k.cred_id == call.result.cred_id) = some cred ∧
      wa.update_credential cred call.result = some (true, k) := by
    intro k hk
    obtain ⟨credentials, hall, hk⟩ := Option.bind_eq_some_iff.mp hk
    obtain ⟨cred, hfind, hk⟩ := Option.bind_eq_some_iff.mp hk
    refine ⟨credentials, cred, hall, hfind, ?_⟩
    split at hk
    · rename_i k' hup
      rw [hup, Option.some.inj hk]
    · cases hk
  cases hall : (rows.filterMap passkey_credentials.prj).mapM fun p => wa.from_str p.passkey_data with
  | none =>
      refine .inr (.inr ⟨rows, rfl, fun k hk => ?_⟩)
      obtain ⟨credentials, _, hall', _⟩ := hrefreshed hk
      rw [hall] at hall'
      cases hall'
  | some credentials =>
      refine goesE_ret ?_
      dsimp only
      cases hfind : credentials.find? fun k => k.cred_id == call.result.cred_id with
      | none =>
          refine .inr (.inr ⟨rows, rfl, fun k hk => ?_⟩)
          obtain ⟨credentials', cred, hall', hfind', _⟩ := hrefreshed hk
          obtain rfl := Option.some.inj (hall.symm.trans hall')
          rw [hfind] at hfind'
          cases hfind'
      | some cred =>
          dsimp only
          have hsame : ∀ {k}, refreshed wa rows call.result = some k →
              wa.update_credential cred call.result = some (true, k) := by
            intro k hk
            obtain ⟨credentials', cred', hall', hfind', hup⟩ := hrefreshed hk
            obtain rfl := Option.some.inj (hall.symm.trans hall')
            obtain rfl := Option.some.inj (hfind.symm.trans hfind')
            exact hup
          rcases hup : wa.update_credential cred call.result with _ | ⟨_ | _, k⟩
          · exact goes_ret (.inr (.inr ⟨rows, rfl, fun k hk => nomatch hup.symm.trans (hsame hk)⟩))
          · exact goes_ret (.inr (.inr ⟨rows, rfl, fun k hk => nomatch hup.symm.trans (hsame hk)⟩))
          · have hk : refreshed wa rows call.result = some k := by
              unfold refreshed
              rw [hall]
              simp only [Option.bind_eq_bind, Option.bind_some, hfind, hup]
            refine goes_run ?_
            unfold CredsRepo.update_credential
            dsimp only
            cases hdata : wa.to_string k with
            | none =>
                refine .inr (.inr ⟨rows, rfl, fun k' hk' => ?_⟩)
                obtain rfl := Option.some.inj (hk.symm.trans hk')
                exact hdata
            | some data =>
                refine goesE_bind (goesE_lift (goes_ask ?_))
                intro now
                refine ⟨_, .clock hk hdata, ?_⟩
                exact goesE_bind (goesE_write_pool (.writing k data now) (fun is => .scan)
                  (fun e => .scan_fails) (fun i is acc rows => .visit)
                  (fun i is acc e => .visit_fails) (fun acc => .commit)
                  (fun acc e => .commit_fails) .drop (fun acc => .inr (.inl ⟨k, acc, rfl⟩))
                  (fun e => .inl rfl))

end Protocol

/-! ### The rows through a run -/

section Invariant

variable {Reg Cred : Type} {wa : Webauthn Reg Cred}

abbrev CounterGhost (wa : Webauthn Reg Cred) : Type := (recounting wa).Ghost

/-- Login `j` asserts this counter. -/
def Counted (gs : List (CounterGhost wa)) (j n : Nat) : Prop :=
  ∃ g, gs[j]? = some g ∧ g.call.result.counter = n

/-- The row is a form of the credential `k₀` of the row `p₀`: it holds `k`. -/
def FormOf (wa : Webauthn Reg Cred) (p₀ : PasskeyCredential) (k₀ : Passkey) (v : Option Record)
    (k : Passkey) : Prop :=
  ∃ p, v = some (.passkey_credential p) ∧ p.user_id = p₀.user_id ∧
    p.credential_id = p₀.credential_id ∧ wa.from_str p.passkey_data = some k ∧
    k.cred_id = k₀.cred_id

theorem FormOf.unique {p₀ : PasskeyCredential} {k₀ k l : Passkey} {v : Option Record}
    (h : FormOf wa p₀ k₀ v k) (h' : FormOf wa p₀ k₀ v l) : k = l := by
  obtain ⟨p, hv, -, -, hk, -⟩ := h
  obtain ⟨q, hv', -, -, hl, -⟩ := h'
  cases hv.symm.trans hv'
  exact Option.some.inj (hk.symm.trans hl)

/-- The versions of a credential's row: the latest has the largest counter, each has the counter
its writer asserted, and so has what a login will leave there. -/
structure CounterSlot (gs : List (CounterGhost wa)) (p₀ : PasskeyCredential) (k₀ : Passkey)
    (s : Slot Record) : Prop where
  rooted : s.Rooted
  nonempty : s.versions ≠ []
  forms : ∀ {x : Version Record}, x ∈ s.versions →
    ∃ k, FormOf wa p₀ k₀ x.row k ∧ ∀ j, x.writer = some j → Counted gs j k.counter
  sorted : s.versions.Pairwise fun x y => ∀ k l, FormOf wa p₀ k₀ x.row k → FormOf wa p₀ k₀ y.row l →
    l.counter ≤ k.counter
  lock : ∀ {j : Nat} {v : Option Record}, s.lock = some (j, v) →
    ∃ k, FormOf wa p₀ k₀ v k ∧ Counted gs j k.counter ∧
      ∀ x ∈ s.versions, ∀ l, FormOf wa p₀ k₀ x.row l → l.counter ≤ k.counter

/-- What has become of the row that was `r`. -/
def CounterRow (wa : Webauthn Reg Cred) (gs : List (CounterGhost wa)) (r : Record)
    (s : Slot Record) : Prop :=
  (∃ p k, r = .passkey_credential p ∧ wa.from_str p.passkey_data = some k ∧
    CounterSlot gs p k s) ∨ ((∀ p, r ≠ .passkey_credential p) ∧ s = .loaded r)

/-- Some version of row `d` holds the credential `k`. -/
def HasHeld (wa : Webauthn Reg Cred) (rows : List Record) (db : Table Record) (d : Nat)
    (k : Passkey) : Prop :=
  ∃ p k₀ s x, rows[d]? = some (.passkey_credential p) ∧ wa.from_str p.passkey_data = some k₀ ∧
    db[d]? = some s ∧ x ∈ s.versions ∧ FormOf wa p k₀ x.row k

/-- The credential a login is about to write back, from a copy with a smaller counter. -/
def Raised (wa : Webauthn Reg Cred) (rows : List Record) (db : Table Record) (d : Nat)
    (call : AssertedLogin) (k : Passkey) : Prop :=
  Asserts wa rows d call ∧ k.cred_id = call.result.cred_id ∧ k.counter = call.result.counter ∧
    ∃ l, HasHeld wa rows db d l ∧ l.counter < k.counter

/-- What a login's phase says of the table. -/
def CounterFacts (wa : Webauthn Reg Cred) (rows : List Record) (db : Table Record)
    (call : AssertedLogin) : CounterPhase → Prop
  | .start => True
  | .bad | .closed => False
  | .loaded out =>
      (∀ r ∈ out, ∃ d p k, rows[d]? = some (.passkey_credential p) ∧ p.user_id = call.user_id ∧
        HasHeld wa rows db d k ∧ stored_passkey wa r = some k) ∧
      ∀ d p, rows[d]? = some (.passkey_credential p) → p.user_id = call.user_id →
        ∃ r ∈ out, ∃ k, HasHeld wa rows db d k ∧ stored_passkey wa r = some k
  | .timed k data _ => wa.from_str data = some k ∧ ∃ d, Raised wa rows db d call k
  | .writing k data _ is acc => wa.from_str data = some k ∧
      ∃ d, Raised wa rows db d call k ∧
        (is = [d] ∧ acc = [] ∨ is = [] ∧ ∃ new, acc = [(d, new)])
  | .written _ _ => ∃ d, Asserts wa rows d call ∧
      ∃ l, HasHeld wa rows db d l ∧ call.result.counter ≤ l.counter

namespace CounterPhase

/-- What the login holds; unknown where a statement has just failed. -/
def held : CounterPhase → Option (List (Nat × Option Record))
  | .bad => none
  | .writing _ _ _ _ acc => some (marks acc)
  | _ => some []

/-- What it has committed. -/
def wrote : CounterPhase → List (Nat × Option Record)
  | .written _ acc => marks acc
  | _ => []

end CounterPhase

/-- What row `d` looks like in the middle of a run. -/
def CounterAt (wa : Webauthn Reg Cred) (rows : List Record) (gs : List (CounterGhost wa)) (d : Nat)
    (s : Slot Record) : Prop := ∃ r, rows[d]? = some r ∧ CounterRow wa gs r s

/-- **The invariant of the counters.** -/
abbrev CountersKept (wa : Webauthn Reg Cred) (rows : List Record) (db : Table Record)
    (gs : List (CounterGhost wa)) : Prop :=
  Books (CounterAt wa rows) (fun db _ (g : CounterGhost wa) => CounterFacts wa rows db g.call g.phase)
    CounterPhase.held CounterPhase.wrote rows.length db gs

/-! ### Rows -/

section Rows

variable {gs gs' : List (CounterGhost wa)} {rows : List Record} {db db' : Table Record}
  {p₀ : PasskeyCredential} {k₀ k : Passkey} {s : Slot Record} {d me j n : Nat}

theorem Counted.same (h : Counted gs j n) (hcalls : SameCalls gs gs') : Counted gs' j n := by
  obtain ⟨g, hg, hn⟩ := h
  obtain ⟨g', hg', hcall⟩ := hcalls hg
  exact ⟨g', hg', by rw [hcall]; exact hn⟩

theorem Counted.unique {m : Nat} (h : Counted gs j n) (h' : Counted gs j m) : n = m := by
  obtain ⟨g, hg, rfl⟩ := h
  obtain ⟨g', hg', rfl⟩ := h'
  rw [Option.some.inj (hg.symm.trans hg')]

namespace CounterSlot

theorem same (h : CounterSlot gs p₀ k₀ s) (hcalls : SameCalls gs gs') :
    CounterSlot gs' p₀ k₀ s := by
  refine ⟨h.rooted, h.nonempty, fun hx => ?_, h.sorted, fun hl => ?_⟩
  · obtain ⟨k, hk, hwriter⟩ := h.forms hx
    exact ⟨k, hk, fun j hj => (hwriter j hj).same hcalls⟩
  · obtain ⟨k, hk, hcount, hle⟩ := h.lock hl
    exact ⟨k, hk, hcount.same hcalls, hle⟩

theorem commit (h : CounterSlot gs p₀ k₀ s) : CounterSlot gs p₀ k₀ (s.commit me) := by
  by_cases hown : ∃ v, s.lock = some (me, v)
  · obtain ⟨v, hv⟩ := hown
    obtain ⟨k, hk, hcount, hle⟩ := h.lock hv
    have hrooted := h.rooted.commit me
    rw [Slot.commit_of_own hv] at hrooted ⊢
    refine ⟨hrooted, by simp, fun hx => ?_, List.pairwise_cons.mpr ⟨?_, h.sorted⟩,
      fun hl => by cases hl⟩
    · rcases List.mem_cons.mp hx with rfl | hx
      · refine ⟨k, hk, fun j hj => ?_⟩
        obtain rfl := Option.some.inj hj
        exact hcount
      · exact h.forms hx
    · intro y hy k' l hk' hl
      obtain rfl := hk.unique hk'
      exact hle y hy l hl
  · rw [Slot.commit_of_not_own fun r hr => hown ⟨r, hr⟩]
    exact h

theorem rollback (h : CounterSlot gs p₀ k₀ s) : CounterSlot gs p₀ k₀ (s.rollback me) := by
  by_cases hown : ∃ v, s.lock = some (me, v)
  · obtain ⟨v, hv⟩ := hown
    rw [Slot.rollback_of_own hv]
    exact ⟨h.rooted, h.nonempty, h.forms, h.sorted, fun hl => by cases hl⟩
  · rw [Slot.rollback_of_not_own fun r hr => hown ⟨r, hr⟩]
    exact h

theorem hold (h : CounterSlot gs p₀ k₀ s) {v : Option Record} (hk : FormOf wa p₀ k₀ v k)
    (hcount : Counted gs me k.counter)
    (hle : ∀ x ∈ s.versions, ∀ l, FormOf wa p₀ k₀ x.row l → l.counter ≤ k.counter) :
    CounterSlot gs p₀ k₀ (s.hold me v) := by
  refine ⟨h.rooted, h.nonempty, h.forms, h.sorted, fun {j v'} hl => ?_⟩
  obtain ⟨rfl, rfl⟩ : me = j ∧ v = v' := by simpa [Slot.hold] using hl
  exact ⟨k, hk, hcount, hle⟩

/-- The committed row is the version with the largest counter. -/
theorem current (h : CounterSlot gs p₀ k₀ s) :
    ∃ x rest k, s.versions = x :: rest ∧ s.current = x.row ∧ FormOf wa p₀ k₀ x.row k ∧
      ∀ y ∈ s.versions, ∀ l, FormOf wa p₀ k₀ y.row l → l.counter ≤ k.counter := by
  obtain ⟨x, rest, hv⟩ := List.exists_cons_of_ne_nil h.nonempty
  obtain ⟨k, hk, -⟩ := h.forms (by rw [hv]; exact List.mem_cons_self)
  have hsorted := h.sorted
  rw [hv, List.pairwise_cons] at hsorted
  refine ⟨x, rest, k, hv, by simp [Slot.current, hv], hk, fun y hy l hl => ?_⟩
  rw [hv] at hy
  rcases List.mem_cons.mp hy with rfl | hy
  · rcases hk.unique hl with rfl
    exact Nat.le_refl _
  · exact hsorted.1 y hy k l hk hl

/-- Nobody has written a larger counter than `n`, if the last writer has not. -/
theorem le_of_last (h : CounterSlot gs p₀ k₀ s)
    (hlast : ∀ j, s.versions.head?.bind (·.writer) = some j → ∀ m, Counted gs j m → m ≤ n)
    {l : Passkey} (hl : ∃ x ∈ s.versions, FormOf wa p₀ k₀ x.row l) (hlt : l.counter ≤ n) :
    ∀ y ∈ s.versions, ∀ l, FormOf wa p₀ k₀ y.row l → l.counter ≤ n := by
  obtain ⟨x, rest, k, hv, -, hk, hmax⟩ := h.current
  suffices hkn : k.counter ≤ n from fun y hy l hl => Nat.le_trans (hmax y hy l hl) hkn
  cases hwriter : x.writer with
  | some j =>
      obtain ⟨k', hk', hcounted⟩ := h.forms (by rw [hv]; exact List.mem_cons_self)
      obtain rfl := hk.unique hk'
      exact hlast j (by rw [hv]; exact hwriter) _ (hcounted j hwriter)
  | none =>
      -- the row is as it was at the start, and that is what was loaded
      obtain ⟨w, row⟩ := x
      obtain rfl : w = none := hwriter
      obtain rfl : rest = [] := h.rooted [] rest row hv
      obtain ⟨y, hy, hform⟩ := hl
      rw [hv] at hy
      obtain rfl := List.mem_singleton.mp hy
      rw [hk.unique hform]
      exact hlt

end CounterSlot

/-- What rows look like, and what phases say, does not depend on the other logins. -/
theorem HasHeld.effect (h : HasHeld wa rows db d k) (he : Effect me db db') :
    HasHeld wa rows db' d k := by
  obtain ⟨p, k₀, s, x, hrow, hk₀, hs, hx, hform⟩ := h
  obtain ⟨s', hs', hx'⟩ := he.version_stays hs hx
  exact ⟨p, k₀, s', x, hrow, hk₀, hs', hx', hform⟩

theorem Raised.effect {call : AssertedLogin} (h : Raised wa rows db d call k)
    (he : Effect me db db') : Raised wa rows db' d call k := by
  obtain ⟨hasserts, hid, hcount, l, hl, hlt⟩ := h
  exact ⟨hasserts, hid, hcount, l, hl.effect he, hlt⟩

theorem CounterFacts.effect {call : AssertedLogin} {ph : CounterPhase}
    (h : CounterFacts wa rows db call ph) (he : Effect me db db') :
    CounterFacts wa rows db' call ph := by
  cases ph with
  | start => trivial
  | bad | closed => exact h
  | loaded out =>
      refine ⟨fun r hr => ?_, fun d p hrow howner => ?_⟩
      · obtain ⟨d, p, k, hrow, howner, hk, hr⟩ := h.1 r hr
        exact ⟨d, p, k, hrow, howner, hk.effect he, hr⟩
      · obtain ⟨r, hr, k, hk, hdata⟩ := h.2 d p hrow howner
        exact ⟨r, hr, k, hk.effect he, hdata⟩
  | timed k data now =>
      obtain ⟨hdata, d, hraised⟩ := h
      exact ⟨hdata, d, hraised.effect he⟩
  | writing k data now is acc =>
      obtain ⟨hdata, d, hraised, hacc⟩ := h
      exact ⟨hdata, d, hraised.effect he, hacc⟩
  | written k acc =>
      obtain ⟨d, hasserts, l, hl, hle⟩ := h
      exact ⟨d, hasserts, l, hl.effect he, hle⟩

theorem counters_stable (rows : List Record) : Stable (CounterAt wa rows)
    (fun db _ (g : CounterGhost wa) => CounterFacts wa rows db g.call g.phase) where
  commit := by
    intro gs d me s hpost
    obtain ⟨r, hr, hrow⟩ := hpost
    refine ⟨r, hr, ?_⟩
    rcases hrow with ⟨p, k, rfl, hk, hslot⟩ | ⟨hno, rfl⟩
    · exact .inl ⟨p, k, rfl, hk, hslot.commit⟩
    · exact .inr ⟨hno, rfl⟩
  rollback := by
    intro gs d me s hpost
    obtain ⟨r, hr, hrow⟩ := hpost
    refine ⟨r, hr, ?_⟩
    rcases hrow with ⟨p, k, rfl, hk, hslot⟩ | ⟨hno, rfl⟩
    · exact .inl ⟨p, k, rfl, hk, hslot.rollback⟩
    · exact .inr ⟨hno, rfl⟩
  calls := by
    intro gs gs' d s hpost hcalls
    obtain ⟨r, hr, hrow⟩ := hpost
    refine ⟨r, hr, ?_⟩
    rcases hrow with ⟨p, k, rfl, hk, hslot⟩ | ⟨hno, rfl⟩
    · exact .inl ⟨p, k, rfl, hk, hslot.same hcalls⟩
    · exact .inr ⟨hno, rfl⟩
  facts h he _ := h.effect he

end Rows

/-! ### What a login loads, and what it makes of it -/

section Loading

variable {gs : List (CounterGhost wa)} {rows : List Record} {db : Table Record} {i : Nat}
  {g : CounterGhost wa}

/-- Two rows that assert one credential are one. -/
theorem StoredPasskeys.asserts_unique (h : StoredPasskeys wa rows) {d d' : Nat}
    {call : AssertedLogin} (hd : Asserts wa rows d call) (hd' : Asserts wa rows d' call) :
    d = d' := by
  obtain ⟨p, k, hp, -, hk, hid⟩ := hd
  obtain ⟨p', k', hp', -, hk', hid'⟩ := hd'
  obtain ⟨l, hl, hfiled⟩ := h.filed hp
  obtain ⟨l', hl', hfiled'⟩ := h.filed hp'
  obtain rfl := Option.some.inj (hk.symm.trans hl)
  obtain rfl := Option.some.inj (hk'.symm.trans hl')
  refine h.unique hp hp' ?_
  rw [hfiled, hfiled', credential_id_b64, credential_id_b64, hid, hid']

/-- What is committed in a credential's row is what a login that does not hold it sees there. -/
theorem CountersKept.sees (hI : CountersKept wa rows db gs) (hg : gs[i]? = some g)
    {H : List (Nat × Option Record)} (hheld : g.phase.held = some H) {d : Nat}
    (hd : ∀ v, (d, v) ∉ H) {s : Slot Record} {p : PasskeyCredential} {k₀ : Passkey}
    (hs : db[d]? = some s) (hrow : rows[d]? = some (.passkey_credential p))
    (hk₀ : wa.from_str p.passkey_data = some k₀) :
    CounterSlot gs p k₀ s ∧ ∃ q k, s.view i = some (.passkey_credential q) ∧
      q.user_id = p.user_id ∧ q.credential_id = p.credential_id ∧
      wa.from_str q.passkey_data = some k ∧ k.cred_id = k₀.cred_id ∧ HasHeld wa rows db d k := by
  obtain ⟨r₀, hr₀, hcr⟩ := hI.slots hs
  obtain rfl := Option.some.inj (hrow.symm.trans hr₀)
  rcases hcr with ⟨q, k₁, hq, hk₁, hslot⟩ | ⟨hno, -⟩
  · cases hq
    obtain rfl := Option.some.inj (hk₀.symm.trans hk₁)
    obtain ⟨x, rest, k, hv, hcur, hform, -⟩ := hslot.current
    have hheld' : HasHeld wa rows db d k :=
      ⟨p, k₀, s, x, hrow, hk₀, hs, by rw [hv]; exact List.mem_cons_self, hform⟩
    obtain ⟨q, hx, howner, hfiled, hdata, hid⟩ := hform
    exact ⟨hslot, q, k, by rw [hI.view hg hs hheld hd, hcur, hx], howner, hfiled, hdata, hid,
      hheld'⟩
  · exact absurd rfl (hno p)

/-- A row seen as a passkey's is a passkey's. -/
theorem CountersKept.passkey_at (hI : CountersKept wa rows db gs) {d : Nat} {s : Slot Record}
    {q : PasskeyCredential} (hs : db[d]? = some s) (hv : s.view i = some (.passkey_credential q)) :
    ∃ p k₀, rows[d]? = some (.passkey_credential p) ∧ wa.from_str p.passkey_data = some k₀ := by
  obtain ⟨r₀, hr₀, hcr⟩ := hI.slots hs
  rcases hcr with ⟨p, k₀, rfl, hk₀, -⟩ | ⟨hno, rfl⟩
  · exact ⟨p, k₀, hr₀, hk₀⟩
  · rw [Slot.view_of_unlocked rfl, Slot.current_loaded] at hv
    exact absurd (Option.some.inj hv) (hno q)

/-- A login loads the stored credentials of its account, all of them and no others. -/
theorem CountersKept.load (hI : CountersKept wa rows db gs) (hstored : StoredPasskeys wa rows)
    (hg : gs[i]? = some g) (hheld : g.phase.held = some []) :
    CounterFacts wa rows db g.call (.loaded ((db.filterMap (Slot.view i)).filter
      (passkey_credentials.sel (OwnedBy g.call.user_id)))) := by
  constructor
  · intro r hr
    obtain ⟨hview, hsel⟩ := List.mem_filter.mp hr
    obtain ⟨s, hs, hv⟩ := List.mem_filterMap.mp hview
    obtain ⟨d, hd⟩ := List.mem_iff_getElem?.mp hs
    obtain ⟨q, rfl, howner⟩ := passkey_credentials.sel_iff.mp hsel
    obtain ⟨p, k₀, hrow, hk₀⟩ := hI.passkey_at hd hv
    obtain ⟨-, q', k, hv', huser, -, hdata, -, hk⟩ := hI.sees hg hheld (by simp) hd hrow hk₀
    cases hv.symm.trans hv'
    refine ⟨d, p, k, hrow, ?_, hk, hdata⟩
    rw [← huser]
    exact beq_iff_eq.mp howner
  · intro d p hrow howner
    have hlt : d < db.length :=
      Nat.lt_of_lt_of_le (List.getElem?_eq_some_iff.mp hrow).1 hI.length
    obtain ⟨k₀, hk₀, -⟩ := hstored.filed hrow
    obtain ⟨-, q, k, hv, huser, -, hdata, -, hk⟩ :=
      hI.sees hg hheld (by simp) (List.getElem?_eq_getElem hlt) hrow hk₀
    refine ⟨_, List.mem_filter.mpr ⟨List.mem_filterMap.mpr ⟨_, List.getElem_mem hlt, hv⟩, ?_⟩, k, hk,
      hdata⟩
    simp [Relation.sel, passkey_credentials, OwnedBy, huser, howner]

theorem mapM_some {α β : Type} {f : α → Option β} {l : List α} (h : ∀ a ∈ l, (f a).isSome) :
    ∃ l', l.mapM f = some l' ∧ ∀ a ∈ l, ∃ b ∈ l', f a = some b := by
  induction l with
  | nil => exact ⟨[], rfl, by simp⟩
  | cons a rest ih =>
      obtain ⟨b, hb⟩ := Option.isSome_iff_exists.mp (h a List.mem_cons_self)
      obtain ⟨l', hl', hall⟩ := ih fun x hx => h x (List.mem_cons_of_mem a hx)
      refine ⟨b :: l', by rw [List.mapM_cons, hb, hl']; rfl, fun x hx => ?_⟩
      rcases List.mem_cons.mp hx with rfl | hx
      · exact ⟨b, List.mem_cons_self, hb⟩
      · obtain ⟨y, hy, hxy⟩ := hall x hx
        exact ⟨y, List.mem_cons_of_mem b hy, hxy⟩

/-- Having loaded these rows, the login has the credential it asserts in hand. -/
theorem loaded_finds {call : AssertedLogin} {out : List Record}
    (hf : CounterFacts wa rows db call (.loaded out)) :
    ∃ credentials, ((out.filterMap passkey_credentials.prj).mapM fun p =>
        wa.from_str p.passkey_data) = some credentials ∧
      (∀ k ∈ credentials, k.cred_id = call.result.cred_id → ∃ d, Asserts wa rows d call ∧
        HasHeld wa rows db d k) ∧
      ∀ d, Asserts wa rows d call → ∃ k ∈ credentials, k.cred_id = call.result.cred_id := by
  have hprj : ∀ {p}, p ∈ out.filterMap passkey_credentials.prj →
      Record.passkey_credential p ∈ out := by
    intro p hp
    obtain ⟨r, hr, hrp⟩ := List.mem_filterMap.mp hp
    obtain rfl := passkey_credentials.inj_of_prj hrp
    exact hr
  obtain ⟨credentials, hall, hmem⟩ := mapM_some (f := fun p : PasskeyCredential =>
      wa.from_str p.passkey_data) (l := out.filterMap passkey_credentials.prj) fun p hp => by
    obtain ⟨d, q, k, -, -, -, hdata⟩ := hf.1 _ (hprj hp)
    exact Option.isSome_iff_exists.mpr ⟨k, hdata⟩
  refine ⟨credentials, hall, fun k hk hid => ?_, fun d hd => ?_⟩
  · obtain ⟨p, hp, hdata⟩ := mem_of_mapM hall hk
    obtain ⟨d, q, k', hrow, howner, hheld, hdata'⟩ := hf.1 _ (hprj hp)
    obtain rfl : k' = k := Option.some.inj (hdata'.symm.trans hdata)
    obtain ⟨q', k₀, -, -, hrow', hk₀, -, -, -, -, -, -, -, hsame⟩ := id hheld
    cases hrow.symm.trans hrow'
    exact ⟨d, ⟨q, k₀, hrow, howner, hk₀, hsame.symm.trans hid⟩, hheld⟩
  · obtain ⟨p, k₀, hrow, howner, hk₀, hid⟩ := hd
    obtain ⟨r, hr, k, hheld, hdata⟩ := hf.2 d p hrow howner
    obtain ⟨q, hq, hdata⟩ := Option.bind_eq_some_iff.mp hdata
    obtain ⟨b, hb, hqb⟩ := hmem q (List.mem_filterMap.mpr ⟨r, hr, hq⟩)
    obtain rfl : b = k := Option.some.inj (hqb.symm.trans hdata)
    obtain ⟨q', k₁, -, -, hrow', hk₁, -, -, -, -, -, -, -, hsame⟩ := hheld
    cases hrow.symm.trans hrow'
    obtain rfl := Option.some.inj (hk₀.symm.trans hk₁)
    exact ⟨b, hb, hsame.trans hid⟩

/-- What the login writes back is one of them, with the counter raised to what it asserts. -/
theorem refreshed_raised (hwa : wa.CountsUp) {call : AssertedLogin} {out : List Record}
    (hf : CounterFacts wa rows db call (.loaded out)) {k : Passkey}
    (hk : refreshed wa out call.result = some k) : ∃ d, Raised wa rows db d call k := by
  obtain ⟨credentials, hall, hin, -⟩ := loaded_finds hf
  unfold refreshed at hk
  rw [hall] at hk
  simp only [Option.bind_eq_bind, Option.bind_some] at hk
  obtain ⟨l, hfind, hk⟩ := Option.bind_eq_some_iff.mp hk
  have hid : l.cred_id = call.result.cred_id := by simpa using List.find?_some hfind
  obtain ⟨d, hasserts, hheld⟩ := hin l (List.mem_of_find?_eq_some hfind) hid
  obtain ⟨k', hup, hid', hcount⟩ := hwa.update hid
  by_cases hlt : l.counter < call.result.counter
  · rw [hup, decide_eq_true hlt] at hk
    obtain rfl := Option.some.inj hk
    have hcount : k'.counter = call.result.counter := by omega
    exact ⟨d, hasserts, hid'.trans hid, hcount, l, hheld, by omega⟩
  · rw [hup, decide_eq_false hlt] at hk
    cases hk

/-- A login that writes nothing back has found a counter as large as its own. -/
theorem nothing_to_raise (hwa : wa.CountsUp) (hstored : StoredPasskeys wa rows)
    {call : AssertedLogin} {out : List Record} (hf : CounterFacts wa rows db call (.loaded out))
    (hnone : ∀ k, refreshed wa out call.result = some k → wa.to_string k = none) {d : Nat}
    (hd : Asserts wa rows d call) : ∃ l, HasHeld wa rows db d l ∧ call.result.counter ≤ l.counter := by
  obtain ⟨credentials, hall, hin, hhas⟩ := loaded_finds hf
  obtain ⟨k, hk, hid⟩ := hhas d hd
  obtain ⟨l, hfind⟩ := Option.isSome_iff_exists.mp (List.find?_isSome.mpr
    ⟨k, hk, beq_iff_eq.mpr hid⟩ : (credentials.find? fun k => k.cred_id == call.result.cred_id).isSome)
  have hid : l.cred_id = call.result.cred_id := by simpa using List.find?_some hfind
  obtain ⟨d', hasserts, hheld⟩ := hin l (List.mem_of_find?_eq_some hfind) hid
  obtain rfl := hstored.asserts_unique hd hasserts
  refine ⟨l, hheld, ?_⟩
  by_contra hlt
  obtain ⟨k', hup, -, -⟩ := hwa.update hid
  rw [decide_eq_true (by omega : l.counter < call.result.counter)] at hup
  obtain ⟨data, hdata, -⟩ := hwa.serde k'
  have hk' : refreshed wa out call.result = some k' := by
    unfold refreshed
    rw [hall]
    simp only [Option.bind_eq_bind, Option.bind_some, hfind, hup]
  rw [hnone k' hk'] at hdata
  cases hdata

/-- The `UPDATE` names one row. -/
theorem CountersKept.matching (hI : CountersKept wa rows db gs) (hstored : StoredPasskeys wa rows)
    (hg : gs[i]? = some g) (hheld : g.phase.held = some []) {call : AssertedLogin} {k : Passkey}
    {d : Nat} (hk : Raised wa rows db d call k) :
    SqlOp.matching i (passkey_credentials.sel (FiledUnder (credential_id_b64 k))) db = [d] := by
  obtain ⟨⟨p, k₀, hrow, howner, hk₀, hid₀⟩, hid, -⟩ := hk
  have hfiled : p.credential_id = credential_id_b64 k := by
    obtain ⟨l, hl, hfiled⟩ := hstored.filed hrow
    obtain rfl := Option.some.inj (hk₀.symm.trans hl)
    rw [hfiled, credential_id_b64, credential_id_b64, hid₀, hid]
  have hlt : d < db.length :=
    Nat.lt_of_lt_of_le (List.getElem?_eq_some_iff.mp hrow).1 hI.length
  have hat : ∀ {e : Nat} {s : Slot Record}, db[e]? = some s →
      ∀ {q : PasskeyCredential}, s.view i = some (.passkey_credential q) →
      ∃ p', rows[e]? = some (.passkey_credential p') ∧ q.credential_id = p'.credential_id := by
    intro e s hs q hv
    obtain ⟨p', k₁, hrow', hk₁⟩ := hI.passkey_at hs hv
    obtain ⟨-, q', k', hv', -, hsame, -⟩ := hI.sees hg hheld (by simp) hs hrow' hk₁
    cases hv.symm.trans hv'
    exact ⟨p', hrow', hsame⟩
  refine matching_eq_singleton (List.getElem?_eq_getElem hlt) ?_ fun e s hs hit => ?_
  · obtain ⟨-, q, k', hv, -, hsame, -⟩ :=
      hI.sees hg hheld (by simp) (List.getElem?_eq_getElem hlt) hrow hk₀
    simp [Slot.hits, hv, Relation.sel, passkey_credentials, FiledUnder, hsame, hfiled]
  · unfold Slot.hits at hit
    cases hv : s.view i with
    | none => simp [hv] at hit
    | some r =>
        rw [hv, Option.any_some] at hit
        obtain ⟨q, rfl, hq⟩ := passkey_credentials.sel_iff.mp hit
        obtain ⟨p', hrow', hsame⟩ := hat hs hv
        refine hstored.unique hrow' hrow ?_
        rw [← hsame, hfiled]
        exact beq_iff_eq.mp hq

end Loading

/-! ### Every step keeps it -/

section Steps

variable {c : Crates} {gs : List (CounterGhost wa)} {rows : List Record} {w w' : World} {i : Nat}
  {ch : Choice}

/-- What does not fail is done. -/
theorem answer_done {o : SqlOp Record} {r : o.Reply}
    (h : World.answer c i (.sql o) ch w = some (w', r)) (hch : ch ≠ .fail) :
    ∃ n, SqlOp.answer i o (.done n) w.db = some (w'.db, r) := by
  obtain ⟨out, hout, hans, -⟩ := World.answer_sql h
  cases out with
  | done n => exact ⟨n, hans⟩
  | fault =>
      cases ch with
      | fail => exact absurd rfl hch
      | _ => cases hout

/-- The login takes the row, and leaves the raised counter there. -/
theorem CountersKept.visit (hI : CountersKept wa rows w.db gs) (hstored : StoredPasskeys wa rows)
    {g : CounterGhost wa} (hg : gs[i]? = some g) (hheld : g.phase.held = some []) {d : Nat}
    {k : Passkey} {data : String} {now : Time} (hdata : wa.from_str data = some k)
    (hk : Raised wa rows w.db d g.call k) {out : List Record}
    (hlast : ∀ j, last_writer w d = some j → ∀ m, Counted gs j m → m ≤ g.call.result.counter)
    (hans : World.answer c i (.sql (.visit d (passkey_credentials.sel
      (FiledUnder (credential_id_b64 k))) (passkey_credentials.set (·.recounted data now)))) ch w =
        some (w', Except.ok out)) :
    ∃ s q new, w.db[d]? = some s ∧ s.free i = true ∧ s.view i = some q ∧ out = [new] ∧
      w'.db = w.db.set d (s.hold i (some new)) ∧
      (CounterAt wa rows gs d s → CounterAt wa rows gs d (s.hold i (some new))) := by
  have hmatch := hI.matching hstored hg hheld hk
  obtain ⟨⟨p, k₀, hrow, howner, hk₀, hid₀⟩, hid, hcount, l, hl, hlt⟩ := hk
  obtain ⟨s, hs, hit⟩ := mem_matching.mp (by rw [hmatch]; exact List.mem_singleton_self d)
  rcases World.answer_visit hans with ⟨-, hr | ⟨-, hno⟩⟩ | ⟨s', a, hs', hfree, hview, -, hdb, hr⟩
  · cases hr
  · rw [(hno s hs).2] at hit
    cases hit
  · obtain rfl := Option.some.inj (hs.symm.trans hs')
    obtain ⟨hslot, q, k', hv, huser, hfiled, -, hsame, -⟩ :=
      hI.sees hg hheld (by simp) hs hrow hk₀
    cases hview.symm.trans hv
    refine ⟨s, _, _, hs, hfree, hv, Except.ok.inj hr, hdb, fun _ => ?_⟩
    have hform : FormOf wa p k₀ (some (.passkey_credential (q.recounted data now))) k :=
      ⟨_, rfl, huser, hfiled, hdata, hid.trans hid₀.symm⟩
    refine ⟨_, hrow, .inl ⟨p, k₀, rfl, hk₀, hslot.hold hform ⟨g, hg, hcount.symm⟩ ?_⟩⟩
    obtain ⟨p', k₁, s', x, hrow', hk₁, hs', hx, hl⟩ := hl
    cases hrow.symm.trans hrow'
    obtain rfl := Option.some.inj (hk₀.symm.trans hk₁)
    obtain rfl := Option.some.inj (hs.symm.trans hs')
    refine hslot.le_of_last (fun j hj m hm => ?_) ⟨x, hx, hl⟩ (Nat.le_of_lt hlt)
    rw [hcount]
    exact hlast j (by simp [last_writer, hs, hj]) m hm

/-- What the login holds becomes a version of the row. -/
theorem CountersKept.written (hI : CountersKept wa rows w.db gs) {g : CounterGhost wa}
    (hg : gs[i]? = some g) {d : Nat} {new : Record}
    (hheld : g.phase.held = some (marks [(d, new)])) (hd : Asserts wa rows d g.call) :
    ∃ l, HasHeld wa rows (w.db.map (Slot.commit i)) d l ∧
      g.call.result.counter ≤ l.counter := by
  obtain ⟨s, hs, hl⟩ := (hI.ledger.holds hg hheld d (some new)).mpr (by simp [marks])
  obtain ⟨p, k₀, hrow, -, hk₀, -⟩ := hd
  obtain ⟨r, hr, hcr⟩ := hI.slots hs
  obtain rfl := Option.some.inj (hrow.symm.trans hr)
  rcases hcr with ⟨q, k₁, hq, hk₁, hslot⟩ | ⟨hno, -⟩
  · cases hq
    obtain rfl := Option.some.inj (hk₀.symm.trans hk₁)
    obtain ⟨k, hform, hcount, -⟩ := hslot.lock hl
    refine ⟨k, ⟨p, k₀, s.commit i, ⟨some i, some new⟩, hrow, hk₀, ?_, ?_, hform⟩,
      Nat.le_of_eq (Counted.unique ⟨g, hg, rfl⟩ hcount)⟩
    · rw [List.getElem?_map, hs]
      rfl
    · rw [Slot.commit_of_own hl]
      exact List.mem_cons_self
  · exact absurd rfl (hno p)

theorem CountersKept.step (hwa : wa.CountsUp) (hstored : StoredPasskeys wa rows)
    (hI : CountersKept wa rows w.db gs) {g : CounterGhost wa} (hg : gs[i]? = some g) {o : Op}
    {r : o.Reply} {ph : CounterPhase} (hans : World.answer c i o ch w = some (w', r))
    (hstep : CounterStep wa g.call g.phase o r ph) (hch : ch ≠ .fail)
    (hlast : ∀ d p f, o = .sql (.visit d p f) → ∀ j, last_writer w d = some j →
      ∀ m, Counted gs j m → m ≤ g.call.result.counter) :
    CountersKept wa rows w'.db (gs.set i ⟨g.call, ⟨o, r⟩ :: g.log, ph⟩) := by
  have hf := hI.facts hg
  have hstable : Stable (CounterAt wa rows) (fun db _ (g : CounterGhost wa) =>
      CounterFacts wa rows db g.call g.phase) := counters_stable rows
  obtain ⟨call, log, phase⟩ := g
  cases hstep with
  | load =>
      obtain ⟨rfl, hr | hr⟩ := World.answer_select hans
      · obtain rfl := Except.ok.inj hr
        have hload := hI.load hstored hg rfl
        exact hI.same hstable hg rfl (.inl rfl) (fun x hx => hx) hload
      · cases hr
  | load_fails | scan_fails | commit_fails =>
      obtain ⟨n, hdone⟩ := answer_done hans hch
      cases congrArg Prod.snd (Option.some.inj hdone)
  | visit_fails =>
      obtain ⟨n, hdone⟩ := answer_done hans hch
      simp only [SqlOp.answer] at hdone
      split at hdone
      · obtain ⟨-, heq⟩ := Option.ite_none_right_eq_some.mp hdone
        cases congrArg Prod.snd (Option.some.inj heq)
      · cases congrArg Prod.snd (Option.some.inj hdone)
  | clock hk hdata =>
      obtain ⟨-, rfl⟩ := World.answer_now hans
      obtain ⟨data', hdata', hread⟩ := hwa.serde _
      obtain rfl := Option.some.inj (hdata.symm.trans hdata')
      exact hI.same hstable hg rfl (.inl rfl) (fun x hx => hx)
        ⟨hread, refreshed_raised hwa hf hk⟩
  | scan =>
      obtain ⟨hread, d, hraised⟩ := hf
      obtain ⟨rfl, rfl⟩ := World.answer_scanned hans
      exact hI.same hstable hg rfl (.inl rfl) (fun x hx => hx)
        ⟨hread, d, hraised, .inl ⟨hI.matching hstored hg rfl hraised, rfl⟩⟩
  | visit =>
      obtain ⟨hread, d, hraised, ⟨his, rfl⟩ | ⟨his, -⟩⟩ := hf
      · obtain ⟨rfl, rfl⟩ := List.cons.inj his
        obtain ⟨s, q, new, hs, hfree, hview, rfl, hdb, hrow⟩ :=
          hI.visit hstored hg rfl hread hraised (hlast _ _ _ rfl) hans
        rw [hdb]
        refine hI.take hstable hg (by rfl) hs hfree hview rfl rfl (not_mem_marks_nil _)
          (fun x hx => hx) hrow ?_
        exact ⟨hread, _, hraised.effect (.hold hs hfree hview), .inr ⟨rfl, new, rfl⟩⟩
      · cases his
  | commit =>
      obtain ⟨hread, d, hraised, ⟨his, -⟩ | ⟨-, new, rfl⟩⟩ := hf
      · cases his
      · have hdb := World.answer_committed hans
        rw [hdb]
        exact hI.commit hstable hg rfl rfl rfl (fun x hx => by cases hx) (fun x hx => hx)
          ⟨d, hraised.1, hI.written hg rfl hraised.1⟩
  | drop => exact hf.elim

end Steps

end Invariant

/-! ### Runs -/

section Runs

variable {Reg Cred : Type} {wa : Webauthn Reg Cred} {c : Crates} {rows : List Record} {w : World}
  {cfg cfg' : CounterConfig} {gs : List (CounterGhost wa)}
  {evs : List (Basis.Event Choice AssertedLogin Expiry)}

theorem asserted_eq (htr : Protocol.Tracked (recounting wa) cfg gs) {j n : Nat}
    (h : Counted gs j n) : asserted cfg j = n := by
  obtain ⟨g, hg, rfl⟩ := h
  simp [asserted, htr.call hg]

theorem counters_move (hwa : wa.CountsUp) (hstored : StoredPasskeys wa rows)
    {ev : Basis.Event Choice AssertedLogin Expiry} {w' : World} {gs' : List (CounterGhost wa)}
    (htr : Protocol.Tracked (recounting wa) cfg gs) (hI : CountersKept wa rows cfg.shared.db gs)
    (hC : nothing_fails ev = true ∧ no_larger_before cfg ev = true)
    (hmv : Protocol.Move (counting c wa) (recounting wa) cfg gs ev w' gs') :
    CountersKept wa rows w'.db gs' := by
  cases hmv with
  | spawn call => exact hI.spawn (counters_stable rows) rfl trivial
  | @step i ch g o s r ph hg hcall hnext hans hstep =>
      refine hI.step hwa hstored hg hans hstep (by simpa [nothing_fails] using hC.1) ?_
      intro d p f ho j hj m hm
      have hle := hC.2
      rw [ho] at hnext
      simp only [no_larger_before, hnext, hj, Option.all_some, decide_eq_true_eq] at hle
      rw [asserted_eq htr hm, asserted_eq htr ⟨g, hg, rfl⟩] at hle
      exact hle
  | env e =>
      change CountersKept wa rows (cfg.shared.expire e).db gs
      rw [World.expire_db]
      exact hI

theorem counters_start (hstored : StoredPasskeys wa rows) (hw : w.db = rows.map Slot.loaded) :
    CountersKept wa rows w.db [] := by
  rw [hw]
  refine Books.start fun {d r} hr => ⟨r, hr, ?_⟩
  by_cases hp : ∃ p, r = .passkey_credential p
  · obtain ⟨p, rfl⟩ := hp
    obtain ⟨k, hk, -⟩ := hstored.filed hr
    have hform : FormOf wa p k (some (.passkey_credential p)) k := ⟨p, rfl, rfl, rfl, hk, rfl⟩
    refine .inl ⟨p, k, rfl, hk, .loaded _, by simp [Slot.loaded], fun hx => ?_,
      by simp [Slot.loaded], fun hl => by cases hl⟩
    obtain rfl := List.mem_singleton.mp hx
    exact ⟨k, hform, fun j hj => by cases hj⟩
  · exact .inr ⟨fun p h => hp ⟨p, h⟩, rfl⟩

/-- Along an admitted run the counters stay kept, and what a row has held it has held. -/
theorem counters_run (hwa : wa.CountsUp) (hstored : StoredPasskeys wa rows)
    {d : Nat} {k : Passkey}
    (hstart : ∃ gs, Protocol.Tracked (recounting wa) cfg gs ∧
      CountersKept wa rows cfg.shared.db gs ∧ HasHeld wa rows cfg.shared.db d k)
    (horder : (counting c wa).Along
      (fun cfg ev => nothing_fails ev = true ∧ no_larger_before cfg ev = true) cfg evs)
    (hrun : (counting c wa).run cfg evs = some cfg') :
    ∃ gs, Protocol.Tracked (recounting wa) cfg' gs ∧ CountersKept wa rows cfg'.shared.db gs ∧
      HasHeld wa rows cfg'.shared.db d k := by
  refine Protocol.run_tracks (S := counting c wa) (recounting_follows wa c)
    (fun (w : World) gs => CountersKept wa rows w.db gs ∧ HasHeld wa rows w.db d k)
    ?_ hstart horder hrun
  intro cfg gs ev w' gs' htr hpost hC hmv
  obtain ⟨hI, hk⟩ := hpost
  refine ⟨counters_move hwa hstored htr hI hC hmv, ?_⟩
  cases hmv with
  | spawn call => exact hk
  | step hg hcall hnext hans hstep => exact hk.effect (hstep.part.effect hans)
  | env e =>
      change HasHeld wa rows (cfg.shared.expire e).db d k
      rw [World.expire_db]
      exact hk

theorem counters_kept (hwa : wa.CountsUp) (hstored : StoredPasskeys wa rows)
    (hw : w.db = rows.map Slot.loaded)
    (horder : (counting c wa).Along
      (fun cfg ev => nothing_fails ev = true ∧ no_larger_before cfg ev = true) ⟨w, []⟩ evs)
    (hrun : (counting c wa).run ⟨w, []⟩ evs = some cfg) :
    ∃ gs, Protocol.Tracked (recounting wa) cfg gs ∧ CountersKept wa rows cfg.shared.db gs :=
  Protocol.run_tracks (S := counting c wa) (recounting_follows wa c)
    (fun (w : World) gs => CountersKept wa rows w.db gs)
    (fun _ _ _ _ _ htr hI hC hmv => counters_move hwa hstored htr hI hC hmv)
    ⟨[], Protocol.tracked_nil _ w, counters_start hstored hw⟩ horder hrun

/-- The stored counter is one the row holds, and no version has a larger one. -/
theorem CountersKept.stored (hI : CountersKept wa rows cfg.shared.db gs) {d : Nat}
    {p : PasskeyCredential} {k₀ : Passkey} (hrow : rows[d]? = some (.passkey_credential p))
    (hk₀ : wa.from_str p.passkey_data = some k₀) :
    ∃ k, stored_counter wa cfg.shared d = some k.counter ∧ HasHeld wa rows cfg.shared.db d k ∧
      ∀ l, HasHeld wa rows cfg.shared.db d l → l.counter ≤ k.counter := by
  have hlt : d < cfg.shared.db.length :=
    Nat.lt_of_lt_of_le (List.getElem?_eq_some_iff.mp hrow).1 hI.length
  have hs := List.getElem?_eq_getElem hlt
  obtain ⟨r, hr, hcr⟩ := hI.slots hs
  obtain rfl := Option.some.inj (hrow.symm.trans hr)
  rcases hcr with ⟨q, k₁, hq, hk₁, hslot⟩ | ⟨hno, -⟩
  · cases hq
    obtain rfl := Option.some.inj (hk₀.symm.trans hk₁)
    obtain ⟨x, rest, k, hv, hcur, hform, hmax⟩ := hslot.current
    refine ⟨k, ?_, ⟨p, k₀, _, x, hrow, hk₀, hs, by rw [hv]; exact List.mem_cons_self, hform⟩, ?_⟩
    · obtain ⟨q, hx, -, -, hdata, -⟩ := hform
      simp [stored_counter, hs, hcur, hx, stored_passkey, passkey_credentials, hdata]
    · intro l hpost
      obtain ⟨p', k₁, s, y, hrow', hk₁, hs', hy, hl⟩ := hpost
      cases hrow.symm.trans hrow'
      obtain rfl := Option.some.inj (hk₀.symm.trans hk₁)
      obtain rfl := Option.some.inj (hs.symm.trans hs')
      exact hmax y hy l hl
  · exact absurd rfl (hno p)

end Runs

/-- **Stored signature counters never go back**, and come up to what every returned login asserted,
in every run in which nothing fails and no login takes a row after one with a larger counter has
written it. -/
theorem counters_never_go_back {Reg Cred : Type} {wa : Webauthn Reg Cred} (hwa : wa.CountsUp)
    (c : Crates) (rows : List Record) (hstored : StoredPasskeys wa rows) (w : World)
    (hw : w.db = rows.map Slot.loaded) (evs evs' : List (Basis.Event Choice AssertedLogin Expiry))
    (cfg cfg' : CounterConfig) (hfails : ∀ ev ∈ evs ++ evs', nothing_fails ev = true)
    (horder : (counting c wa).Along (fun cfg ev => no_larger_before cfg ev = true) ⟨w, []⟩
      (evs ++ evs'))
    (hrun : (counting c wa).run ⟨w, []⟩ evs = some cfg)
    (hrun' : (counting c wa).run cfg evs' = some cfg') : CountersUp wa rows cfg cfg' := by
  have hboth := System.along_and ((counting c wa).along_of_forall hfails) horder
  obtain ⟨hbefore, hafter⟩ := System.along_append hboth hrun
  have hwhole : (counting c wa).run ⟨w, []⟩ (evs ++ evs') = some cfg' :=
    System.run_append.mpr ⟨cfg, hrun, hrun'⟩
  obtain ⟨gs, htr, hI⟩ := counters_kept hwa hstored hw hbefore hrun
  obtain ⟨gs', htr', hI'⟩ := counters_kept hwa hstored hw hboth hwhole
  refine ⟨fun {d p} hrow => ?_, fun {i d call} hcall hres hd => ?_⟩
  · obtain ⟨k₀, hk₀, -⟩ := hstored.filed hrow
    obtain ⟨k, hk, hheld, -⟩ := hI.stored hrow hk₀
    obtain ⟨gs₂, -, -, hheld'⟩ := counters_run hwa hstored ⟨gs, htr, hI, hheld⟩ hafter hrun'
    obtain ⟨l, hl, -, hmax⟩ := hI'.stored hrow hk₀
    exact ⟨_, _, hk, hl, hmax k hheld'⟩
  · obtain ⟨g, hg, hfinal⟩ := htr'.final hres
    obtain rfl := Option.some.inj ((htr'.call hg).symm.trans hcall)
    have hf := hI'.facts hg
    have hreached : ∃ l, HasHeld wa rows cfg'.shared.db d l ∧
        g.call.result.counter ≤ l.counter := by
      rcases hfinal with hph | ⟨k, acc, hph⟩ | ⟨out, hph, hnone⟩
      · rw [hph] at hf
        exact hf.elim
      · rw [hph] at hf
        obtain ⟨d', hd', hl⟩ := hf
        obtain rfl := hstored.asserts_unique hd hd'
        exact hl
      · rw [hph] at hf
        exact nothing_to_raise hwa hstored hf hnone hd
    obtain ⟨l, hl, hle⟩ := hreached
    obtain ⟨p, k₀, hrow, -, hk₀, -⟩ := hd
    obtain ⟨k, hk, -, hmax⟩ := hI'.stored hrow hk₀
    exact ⟨_, hk, Nat.le_trans hle (hmax l hl)⟩

/-! ### Two logins with one authenticator -/

/-- The sample library, with counters that only rise. -/
def counting_webauthn : Webauthn Passkey (List UInt8) :=
  { sample_webauthn with
    update_credential := fun k result =>
      if k.cred_id == result.cred_id then
        some (decide (k.counter < result.counter), { k with counter := max k.counter result.counter })
      else none }

theorem counting_webauthn_counts : counting_webauthn.CountsUp := by
  refine ⟨fun {k result} hid => ⟨{ k with counter := max k.counter result.counter }, ?_, rfl, rfl⟩,
    fun k => ⟨passkey_text k, rfl, passkey_of_passkey_text k⟩⟩
  simp [counting_webauthn, hid]

/-- Alice's passkey, and nothing else. -/
def one_passkey : List Record := [.passkey_credential sample_enrolment]

theorem one_passkey_stored : StoredPasskeys counting_webauthn one_passkey := by
  have hzero : ∀ {d : Nat} {p : PasskeyCredential},
      one_passkey[d]? = some (.passkey_credential p) → d = 0 ∧ p = sample_enrolment := by
    intro d p hd
    rcases d with _ | d
    · cases hd
      exact ⟨rfl, rfl⟩
    · cases hd
  refine ⟨fun {d p} hd => ?_, fun {d d' p p'} hd hd' _ => ?_⟩
  · obtain ⟨-, rfl⟩ := hzero hd
    exact ⟨sample_passkey, passkey_of_passkey_text sample_passkey, rfl⟩
  · rw [(hzero hd).1, (hzero hd').1]

/-- A login of Alice's that asserts this counter. -/
def alice_asserts (counter : Nat) : AssertedLogin := ⟨7, ⟨[1, 2, 3], counter⟩⟩

/-- One login from start to end: load, clock, scan, row, commit. -/
def login_steps (i : Nat) : List (Basis.Event Choice AssertedLogin Expiry) :=
  [.step i .go, .step i (.time 0), .step i .go, .step i .go, .step i .go]

def first_login : List (Basis.Event Choice AssertedLogin Expiry) :=
  .spawn (alice_asserts 5) :: login_steps 0

def second_login : List (Basis.Event Choice AssertedLogin Expiry) :=
  .spawn (alice_asserts 9) :: login_steps 1

theorem counters_never_go_back_in_turn : ∃ cfg cfg',
    (counting sample_crates counting_webauthn).run ⟨World.of one_passkey, []⟩ first_login =
      some cfg ∧
    (counting sample_crates counting_webauthn).run cfg second_login = some cfg' ∧
    CountersUp counting_webauthn one_passkey cfg cfg' :=
  ⟨_, _, rfl, rfl, counters_never_go_back counting_webauthn_counts sample_crates one_passkey
    one_passkey_stored (World.of one_passkey) rfl first_login second_login _ _ (by decide)
    (by decide) rfl rfl⟩

/-- Both load the credential, and one has written it before the other does. -/
def overtaken_login : List (Basis.Event Choice AssertedLogin Expiry) :=
  [.spawn (alice_asserts 9), .spawn (alice_asserts 5), .step 1 .go, .step 1 (.time 0)] ++
    login_steps 0

/-- The other writes its copy: scan, row, commit. -/
def late_write : List (Basis.Event Choice AssertedLogin Expiry) :=
  [.step 1 .go, .step 1 .go, .step 1 .go]

/-- **Without that condition a login puts the counter back**, though nothing fails. -/
theorem counter_goes_back : ∃ cfg cfg',
    (∀ ev ∈ overtaken_login ++ late_write, nothing_fails ev = true) ∧
    (counting sample_crates counting_webauthn).run ⟨World.of one_passkey, []⟩ overtaken_login =
      some cfg ∧
    (counting sample_crates counting_webauthn).run cfg late_write = some cfg' ∧
    stored_counter counting_webauthn cfg.shared 0 = some 9 ∧
    stored_counter counting_webauthn cfg'.shared 0 = some 5 ∧
    ¬ CountersUp counting_webauthn one_passkey cfg cfg' := by
  refine ⟨_, _, by decide, rfl, rfl, rfl, rfl, ?_⟩
  intro hup
  obtain ⟨n, n', hn, hn', hle⟩ := hup.rising (d := 0) rfl
  cases hn
  cases hn'
  exact absurd hle (by decide)

end Authnz
