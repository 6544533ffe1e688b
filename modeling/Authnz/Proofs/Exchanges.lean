/-
Refresh tokens, statement by statement.

Rotation reads a row in one statement, deletes it in another and inserts its successor
in a third, all in one transaction; revocations are statements of their own and may
come in between.  This module follows the calls through their statements and keeps
the books of the table: what each call has in hand and has committed, that a deleted
row is done with, that nothing takes a revocation back, and that a token's hash has
one row for good, as long as no two draws hash alike.
-/
import Authnz.Basis.Evolve
import Authnz.Proofs.Lineage
import Authnz.Proofs.Walking

namespace Authnz

open Basis

/-- Any number of calls at once. -/
abbrev exchanging (jwt_svc : JwtService) :
    System Op Op.Reply Choice World TokenCall Expiry TokenReply :=
  service jwt_svc.crates (TokenCall.code jwt_svc)

abbrev TokenConfig : Type := Config Op Op.Reply World TokenCall TokenReply

/-! ### The calls, in phases -/

/-- The row of a new token. -/
def new_token (owner : Uuid × String) (token_hash : String) (expires_at created_at : Time) :
    Record :=
  .refresh_token
    { user_id := owner.1, token_hash := token_hash, issuer := owner.2, expires_at := expires_at,
      revoked := some false, created_at := created_at }

def HashIs (hash : String) : RefreshToken → Bool := fun t => t.token_hash == hash

/-- The hash a refresh looks for. -/
def RefreshCmd.hash (c : Crates) (cmd : RefreshCmd) : String :=
  hash_token c (trim cmd.refresh_token)

/-- The tokens a revoking call selects. -/
def TokenCall.revokes (c : Crates) : TokenCall → Option (RefreshToken → Bool)
  | .logout cmd => some (HashIs (hash_token c (trim cmd.refresh_token)))
  | .revoke_all_user_tokens user_id => some fun t => t.user_id == user_id
  | _ => none

def RefreshToken.revoke (t : RefreshToken) : RefreshToken := { t with revoked := some true }

inductive TokenPhase where
  | start
  /-- A statement has failed. -/
  | bad
  | closed
  /-- A refresh: its transaction is open. -/
  | opened
  | looked (rows : List Record)
  | found (t : RefreshToken)
  | owned (owner : Uuid × String)
  /-- The rows in `acc` are deleted, `is` are to come. -/
  | deleting (owner : Uuid × String) (is : List Nat) (acc : List (Nat × Record))
  /-- A new pair could not be signed. -/
  | unsigned (acc : List (Nat × Record))
  | minting (owner : Uuid × String) (acc : List (Nat × Record)) (raw : Option String)
  | put (owner : Uuid × String) (acc : List (Nat × Record)) (raw : String) (row : Record)
  | exchanged (owner : Uuid × String) (acc : List (Nat × Record)) (raw : String) (row : Record)
  /-- A revocation. -/
  | marking (is : List Nat) (acc : List (Nat × Record))
  | marked (acc : List (Nat × Record))
  /-- The deletion of a user. -/
  | removing (is : List Nat) (acc : List (Nat × Record))
  | removed (acc : List (Nat × Record))

/-- The DELETE of a refresh reaches row `i`. -/
def take_token (hash : String) (i : Nat) : Op :=
  .sql (.visit i (refresh_tokens.sel (HashIs hash)) Relation.del)

/-- An UPDATE that revokes reaches row `i`. -/
def mark_token (q : RefreshToken → Bool) (i : Nat) : Op :=
  .sql (.visit i (refresh_tokens.sel q) (refresh_tokens.set (·.revoke)))

/-- The INSERT of a new token. -/
def put_token (owner : Uuid × String) (hash : String) (expires_at created_at : Time) : Op :=
  .sql (.insert .tx (fun _ => new_token owner hash expires_at created_at) refresh_tokens.clashes)

inductive TokenStep (c : Crates) :
    TokenCall → TokenPhase → (o : Op) → o.Reply → TokenPhase → Prop
  | begin {cmd : RefreshCmd} :
      TokenStep c (.refresh cmd) .start (.sql .begin) (Except.ok ()) .opened
  | begin_fails {cmd : RefreshCmd} {e : DbError} :
      TokenStep c (.refresh cmd) .start (.sql .begin) (Except.error e) .closed
  | look {cmd : RefreshCmd} {rows : List Record} :
      TokenStep c (.refresh cmd) .opened
        (.sql (.select (refresh_tokens.sel (HashIs (cmd.hash c))))) (Except.ok rows) (.looked rows)
  | look_fails {cmd : RefreshCmd} {e : DbError} :
      TokenStep c (.refresh cmd) .opened
        (.sql (.select (refresh_tokens.sel (HashIs (cmd.hash c))))) (Except.error e) .closed
  | check {cmd : RefreshCmd} {rows : List Record} {t : RefreshToken} {ts : List RefreshToken}
      {now : Time} (hrows : rows.filterMap refresh_tokens.prj = t :: ts)
      (hlive : t.revoked = some false) :
      TokenStep c (.refresh cmd) (.looked rows) .now now (.found t)
  | drop_looked {cmd : RefreshCmd} {rows : List Record} :
      TokenStep c (.refresh cmd) (.looked rows) (.sql .rollback) () .closed
  | drop_found {cmd : RefreshCmd} {t : RefreshToken} :
      TokenStep c (.refresh cmd) (.found t) (.sql .rollback) () .closed
  | owner {cmd : RefreshCmd} {t : RefreshToken} {u : UserResponse} :
      TokenStep c (.refresh cmd) (.found t) (.retrieve t.user_id) (Except.ok u)
        (.owned (u.id, t.issuer))
  | owner_fails {cmd : RefreshCmd} {t : RefreshToken} {e : ApiError} :
      TokenStep c (.refresh cmd) (.found t) (.retrieve t.user_id) (Except.error e) .closed
  | scan {cmd : RefreshCmd} {owner : Uuid × String} {is : List Nat} :
      TokenStep c (.refresh cmd) (.owned owner)
        (.sql (.scan (refresh_tokens.sel (HashIs (cmd.hash c))))) (Except.ok is)
        (.deleting owner is [])
  | scan_fails {cmd : RefreshCmd} {owner : Uuid × String} {e : DbError} :
      TokenStep c (.refresh cmd) (.owned owner)
        (.sql (.scan (refresh_tokens.sel (HashIs (cmd.hash c))))) (Except.error e) .bad
  | take {cmd : RefreshCmd} {owner : Uuid × String} {i : Nat} {is : List Nat}
      {acc : List (Nat × Record)} {rows : List Record} :
      TokenStep c (.refresh cmd) (.deleting owner (i :: is) acc) (take_token (cmd.hash c) i)
        (Except.ok rows) (.deleting owner is (acc ++ rows.map fun x => (i, x)))
  | take_fails {cmd : RefreshCmd} {owner : Uuid × String} {i : Nat} {is : List Nat}
      {acc : List (Nat × Record)} {e : DbError} :
      TokenStep c (.refresh cmd) (.deleting owner (i :: is) acc) (take_token (cmd.hash c) i)
        (Except.error e) .bad
  | sign {call : TokenCall} {owner : Uuid × String} {acc : List (Nat × Record)}
      {aud : List String} {token : String} :
      TokenStep c call (.deleting owner [] acc) (.sign owner.1 aud) (Except.ok token)
        (.minting owner acc none)
  | sign_fails {call : TokenCall} {owner : Uuid × String} {acc : List (Nat × Record)}
      {aud : List String} {e : String} :
      TokenStep c call (.deleting owner [] acc) (.sign owner.1 aud) (Except.error e) (.unsigned acc)
  | draw {call : TokenCall} {owner : Uuid × String} {acc : List (Nat × Record)}
      {bytes : List UInt8} :
      TokenStep c call (.minting owner acc none) (.fill 32) bytes
        (.minting owner acc (some (base64url bytes)))
  | clock {call : TokenCall} {owner : Uuid × String} {acc : List (Nat × Record)} {raw : String}
      {now : Time} :
      TokenStep c call (.minting owner acc (some raw)) .now now (.minting owner acc (some raw))
  | put {call : TokenCall} {owner : Uuid × String} {acc : List (Nat × Record)} {raw : String}
      {expires_at created_at : Time} {row : Record} :
      TokenStep c call (.minting owner acc (some raw))
        (put_token owner (hash_token c raw) expires_at created_at) (Except.ok row)
        (.put owner acc raw row)
  | put_fails {call : TokenCall} {owner : Uuid × String} {acc : List (Nat × Record)}
      {raw : String} {expires_at created_at : Time} {e : DbError} :
      TokenStep c call (.minting owner acc (some raw))
        (put_token owner (hash_token c raw) expires_at created_at) (Except.error e) .bad
  | commit {call : TokenCall} {owner : Uuid × String} {acc : List (Nat × Record)} {raw : String}
      {row : Record} :
      TokenStep c call (.put owner acc raw row) (.sql .commit) (Except.ok ())
        (.exchanged owner acc raw row)
  | commit_fails {call : TokenCall} {owner : Uuid × String} {acc : List (Nat × Record)}
      {raw : String} {row : Record} {e : DbError} :
      TokenStep c call (.put owner acc raw row) (.sql .commit) (Except.error e) .closed
  | drop {call : TokenCall} : TokenStep c call .bad (.sql .rollback) () .closed
  | dropped {cmd : RefreshCmd} : TokenStep c (.refresh cmd) .closed (.sql .rollback) () .closed
  | drop_unsigned {cmd : RefreshCmd} {acc : List (Nat × Record)} :
      TokenStep c (.refresh cmd) (.unsigned acc) (.sql .rollback) () .closed
  | unput {cmd : RefreshCmd} {owner : Uuid × String} {acc : List (Nat × Record)} {raw : String}
      {row : Record} :
      TokenStep c (.refresh cmd) (.put owner acc raw row) (.sql .rollback) () .closed
  | drop_exchanged {cmd : RefreshCmd} {owner : Uuid × String} {acc : List (Nat × Record)}
      {raw : String} {row : Record} :
      TokenStep c (.refresh cmd) (.exchanged owner acc raw row) (.sql .rollback) ()
        (.exchanged owner acc raw row)
  | scan_marks {call : TokenCall} {q : RefreshToken → Bool} {is : List Nat}
      (hq : call.revokes c = some q) :
      TokenStep c call .start (.sql (.scan (refresh_tokens.sel q))) (Except.ok is) (.marking is [])
  | scan_marks_fails {call : TokenCall} {q : RefreshToken → Bool} {e : DbError}
      (hq : call.revokes c = some q) :
      TokenStep c call .start (.sql (.scan (refresh_tokens.sel q))) (Except.error e) .bad
  | mark {call : TokenCall} {q : RefreshToken → Bool} {i : Nat} {is : List Nat}
      {acc : List (Nat × Record)} {rows : List Record} (hq : call.revokes c = some q) :
      TokenStep c call (.marking (i :: is) acc) (mark_token q i) (Except.ok rows)
        (.marking is (acc ++ rows.map fun x => (i, x)))
  | mark_fails {call : TokenCall} {q : RefreshToken → Bool} {i : Nat} {is : List Nat}
      {acc : List (Nat × Record)} {e : DbError} (hq : call.revokes c = some q) :
      TokenStep c call (.marking (i :: is) acc) (mark_token q i) (Except.error e) .bad
  | commit_marks {call : TokenCall} {acc : List (Nat × Record)} :
      TokenStep c call (.marking [] acc) (.sql .commit) (Except.ok ()) (.marked acc)
  | commit_marks_fails {call : TokenCall} {acc : List (Nat × Record)} {e : DbError} :
      TokenStep c call (.marking [] acc) (.sql .commit) (Except.error e) .closed
  | scan_removed {id : Uuid} {is : List Nat} :
      TokenStep c (.delete_user id) .start (.sql (.scan (Cascades id))) (Except.ok is)
        (.removing is [])
  | scan_removed_fails {id : Uuid} {e : DbError} :
      TokenStep c (.delete_user id) .start (.sql (.scan (Cascades id))) (Except.error e) .bad
  | remove {id : Uuid} {i : Nat} {is : List Nat} {acc : List (Nat × Record)} {rows : List Record} :
      TokenStep c (.delete_user id) (.removing (i :: is) acc)
        (.sql (.visit i (Cascades id) Relation.del)) (Except.ok rows)
        (.removing is (acc ++ rows.map fun x => (i, x)))
  | remove_fails {id : Uuid} {i : Nat} {is : List Nat} {acc : List (Nat × Record)} {e : DbError} :
      TokenStep c (.delete_user id) (.removing (i :: is) acc)
        (.sql (.visit i (Cascades id) Relation.del)) (Except.error e) .bad
  | commit_removed {id : Uuid} {acc : List (Nat × Record)} :
      TokenStep c (.delete_user id) (.removing [] acc) (.sql .commit) (Except.ok ()) (.removed acc)
  | commit_removed_fails {id : Uuid} {acc : List (Nat × Record)} {e : DbError} :
      TokenStep c (.delete_user id) (.removing [] acc) (.sql .commit) (Except.error e) .closed

/-- What a call is done with when it ends in an error. -/
def TokenPhase.Over : TokenPhase → Prop
  | .start | .closed | .unsigned _ | .exchanged _ _ _ _ => True
  | _ => False

/-- Token calls, as a protocol. -/
abbrev rotating (c : Crates) : Protocol Op Op.Reply TokenCall TokenReply where
  Phase := TokenPhase
  start
    | .issue_token_pair user_id issuer => .deleting (user_id, issuer) [] []
    | _ => .start
  Step := TokenStep c
  Final call ph
    | .pair (.ok res) => ∃ owner acc row, ph = .exchanged owner acc res.refresh_token row
    | .pair (.error _) => ph.Over
    | .done (.ok _) => ∃ acc, ph = .marked acc
    | .done (.error _) => ph.Over
    | .deleted _ => ∃ id, call = .delete_user id

theorem TokenStep.part {c : Crates} {call : TokenCall} {ph ph' : TokenPhase} {o : Op} {r : o.Reply}
    (h : TokenStep c call ph o r ph') : World.Part o := by
  cases h <;> first
    | exact .quiet trivial
    | exact .sql (by constructor)

section Walks

-- the emptiness of a presented token is split on, never computed
attribute [local irreducible] trim

/-- Issuing a pair, up to the statement that stores it. -/
theorem goes_issue {c : Crates} {jwt_svc : JwtService} (hc : jwt_svc.crates = c) {call : TokenCall}
    (executor : Executor) (owner : Uuid × String) (acc : List (Nat × Record))
    {Q : TokenPhase → JwtResult → Prop} {E : TokenPhase → JwtError → Prop}
    (hput : ∀ (raw : String) (expires_at created_at : Time),
      GoesE (rotating c) call (attempt JwtError.Database (insert_into refresh_tokens executor fun _ =>
        { user_id := owner.1, token_hash := hash_token c raw, issuer := owner.2,
          expires_at := expires_at, revoked := some false, created_at := created_at }))
        (.minting owner acc (some raw))
        (fun ph _ => ∀ token, Q ph ⟨token, raw, 600⟩) E)
    (hunsigned : ∀ e, E (.unsigned acc) e) :
    GoesE (rotating c) call (jwt_svc.issue_token_pair_with executor owner.1 owner.2)
      (.deleting owner [] acc) Q E := by
  subst hc
  unfold JwtService.issue_token_pair_with
  refine goesE_bind (goesE_attempt (goes_ask ?_))
  intro r
  cases r with
  | error e => exact ⟨_, .sign_fails, hunsigned _⟩
  | ok token =>
      refine ⟨_, .sign, goesE_bind (goesE_lift (goes_bind (goes_ask ?_)))⟩
      intro bytes
      refine ⟨_, .draw, goes_ret (goesE_bind (goesE_lift (goes_ask ?_)))⟩
      intro now
      refine ⟨_, .clock, goesE_bind (goesE_lift (goes_ask ?_))⟩
      intro now'
      refine ⟨_, .clock, goesE_bind (goesE_mono (hput _ _ _) ?_ fun _ _ h => h)⟩
      intro ph _ hQ
      exact goesE_ret (hQ token)

theorem issue_walks (jwt_svc : JwtService) (user_id : Uuid) (issuer : String) :
    GoesE (rotating jwt_svc.crates) (.issue_token_pair user_id issuer)
      (jwt_svc.issue_token_pair user_id issuer) (.deleting (user_id, issuer) [] [])
      (fun ph res => ∃ owner acc row, ph = .exchanged owner acc res.refresh_token row)
      fun ph _ => ph.Over := by
  refine goes_issue rfl .pool (user_id, issuer) [] (fun raw expires_at created_at => ?_)
    fun e => trivial
  exact goesE_insert_pool (fun row => .put) (fun e => .put_fails) (fun row => .commit)
    (fun row e => .commit_fails) .drop (fun row a _ token => ⟨_, _, _, rfl⟩)
    (fun row _ => trivial) fun e => trivial

/-- A refresh from the DELETE on. -/
theorem exchange_walks (jwt_svc : JwtService) (cmd : RefreshCmd) (owner : Uuid × String) :
    GoesE (rotating jwt_svc.crates) (.refresh cmd) (do
        JwtService.delete_refresh_token_by_hash .tx (cmd.hash jwt_svc.crates)
        let result ← jwt_svc.issue_token_pair_with .tx owner.1 owner.2
        attempt JwtError.Database commit_tx
        return result) (.owned owner)
      (fun ph res => ∃ acc row, ph = .exchanged owner acc res.refresh_token row)
      fun ph _ => ∃ ph', TokenStep jwt_svc.crates (.refresh cmd) ph (.sql .rollback) () ph' ∧
        ph'.Over := by
  refine goesE_bind (goesE_bind (goesE_write_tx (.deleting owner) (fun is => .scan)
    (fun e => .scan_fails) (fun i is acc rows => .take) (fun i is acc e => .take_fails)
    (fun acc => ?_) fun e => ⟨_, .drop, trivial⟩))
  refine goesE_ret (goesE_bind (goes_issue rfl .tx owner acc
    (fun raw expires_at created_at => ?_) fun e => ⟨_, .drop_unsigned, trivial⟩))
  refine goesE_insert_tx (fun row => .put) (fun e => .put_fails) (fun row a _ token => ?_)
    (fun row _ => ⟨_, .unput, trivial⟩) fun e => ⟨_, .drop, trivial⟩
  refine goesE_bind (goesE_attempt (goes_ask ?_))
  intro r
  cases r with
  | error e => exact ⟨_, .commit_fails, _, .dropped, trivial⟩
  | ok _ => exact ⟨_, .commit, goesE_ret ⟨_, _, rfl⟩⟩

theorem refresh_walks (jwt_svc : JwtService) (cmd : RefreshCmd) :
    GoesE (rotating jwt_svc.crates) (.refresh cmd) (jwt_svc.refresh cmd) .start
      (fun ph res => ∃ owner acc row, ph = .exchanged owner acc res.refresh_token row)
      fun ph _ => ph.Over := by
  unfold JwtService.refresh
  dsimp only
  split
  · exact goesE_throw trivial
  refine goesE_bind (goesE_attempt (goes_ask ?_))
  intro r
  cases r with
  | error e => exact ⟨_, .begin_fails, trivial⟩
  | ok _ =>
      refine ⟨_, .begin, goesE_in_tx (goesE_bind ?_)⟩
      refine goesE_bind (goesE_select (fun rows => .look) (fun e => .look_fails) (fun rows => ?_)
        fun e => ⟨_, .dropped, trivial⟩)
      cases hrows : rows.filterMap refresh_tokens.prj with
      | nil => exact ⟨_, .drop_looked, trivial⟩
      | cons t ts =>
          dsimp only
          rcases hrev : t.revoked with _ | _ | _
          · exact ⟨_, .drop_looked, trivial⟩
          · refine goesE_ret (goesE_bind (goesE_lift (goes_ask ?_)))
            intro now
            refine ⟨_, .check hrows hrev, ?_⟩
            simp only [Protocol.Walks]
            split
            · exact goesE_throw ⟨_, .drop_found, trivial⟩
            refine goesE_bind (goesE_attempt (goes_ask ?_))
            intro r
            cases r with
            | error e => exact ⟨_, .owner_fails, _, .dropped, trivial⟩
            | ok u =>
                refine ⟨_, .owner, goesE_mono (exchange_walks jwt_svc cmd (u.id, t.issuer)) ?_
                  fun _ _ h => h⟩
                intro ph res hex
                obtain ⟨acc, row, rfl⟩ := hex
                exact ⟨_, .drop_exchanged, _, _, _, rfl⟩
          · exact ⟨_, .drop_looked, trivial⟩

/-- The UPDATE of a revoking call. -/
theorem goes_mark {c : Crates} {call : TokenCall} {q : RefreshToken → Bool}
    (hq : call.revokes c = some q) :
    GoesE (rotating c) call (attempt JwtError.Database
        (update_set refresh_tokens .pool q (fun t => { t with revoked := some true })))
      .start (fun ph _ => ∃ acc, ph = .marked acc)
      fun ph e => ph.Over ∧ e ≠ .RefreshTokenNotFound := by
  refine goesE_write_pool .marking (fun is => .scan_marks hq) (fun e => .scan_marks_fails hq)
    (fun i is acc rows => .mark hq) (fun i is acc e => .mark_fails hq) (fun acc => .commit_marks)
    (fun acc e => .commit_marks_fails) .drop (fun acc => ⟨acc, rfl⟩) fun e => ⟨trivial, ?_⟩
  intro he
  cases he

theorem logout_walks (jwt_svc : JwtService) (cmd : LogoutCmd) :
    GoesE (rotating jwt_svc.crates) (.logout cmd) (jwt_svc.logout cmd) .start
      (fun ph _ => ∃ acc, ph = .marked acc) fun ph _ => ph.Over := by
  unfold JwtService.logout
  dsimp only
  split
  · exact goesE_throw trivial
  unfold JwtService.revoke_refresh_token_by_hash
  refine goes_run (goesE_bind (goesE_mono (goes_mark rfl) (fun ph rows h => ?_)
    fun ph e h => ?_))
  · split
    · exact goesE_throw (goes_ret h)
    · exact goesE_ret (goes_ret h)
  · obtain ⟨hover, hne⟩ := h
    cases e with
    | RefreshTokenNotFound => exact absurd rfl hne
    | _ => exact goes_ret hover

theorem revoke_all_walks (jwt_svc : JwtService) (user_id : Uuid) :
    GoesE (rotating jwt_svc.crates) (.revoke_all_user_tokens user_id)
      (JwtService.revoke_all_user_tokens user_id) .start (fun ph _ => ∃ acc, ph = .marked acc)
      fun ph _ => ph.Over := by
  unfold JwtService.revoke_all_user_tokens
  exact goesE_bind (goesE_mono (goes_mark rfl) (fun _ _ h => goesE_ret h) fun _ _ h => h.1)

/-- What a call returns is what its service function comes to. -/
theorem goes_reply {c : Crates} {call : TokenCall} {β : Type} {p : Service JwtError β}
    (reply : Except JwtError β → TokenReply) {ph : TokenPhase}
    (h : GoesE (rotating c) call p ph (fun ph' b => (rotating c).Final call ph' (reply (.ok b)))
      fun ph' e => (rotating c).Final call ph' (reply (.error e))) :
    Goes (rotating c) call (do return reply (← p.run)) ph ((rotating c).Final call) :=
  goes_run (goesE_mono h (fun _ _ h => goes_ret h) fun _ _ h => goes_ret h)

theorem delete_walks (c : Crates) (id : Uuid) :
    Goes (rotating c) (.delete_user id) (delete_user id) .start fun _ _ => True := by
  refine goes_bind (goes_ask (Protocol.walks_mono (walks_write_pool .removing
    (fun is => .scan_removed) (fun e => .scan_removed_fails) (fun i is acc rows => .remove)
    (fun i is acc e => .remove_fails) (fun acc => .commit_removed)
    (fun acc e => .commit_removed_fails) .drop) ?_))
  intro ph r _
  cases r <;> exact goes_ret trivial

theorem rotating_follows (jwt_svc : JwtService) (call : TokenCall) :
    (rotating jwt_svc.crates).Follows call ((exchanging jwt_svc).code call) := by
  cases call with
  | issue_token_pair user_id issuer => exact goes_reply .pair (issue_walks jwt_svc user_id issuer)
  | refresh cmd => exact goes_reply .pair (refresh_walks jwt_svc cmd)
  | logout cmd => exact goes_reply .done (logout_walks jwt_svc cmd)
  | revoke_all_user_tokens user_id => exact goes_reply .done (revoke_all_walks jwt_svc user_id)
  | delete_user id =>
      exact goes_bind (goes_mono (delete_walks jwt_svc.crates id) fun _ _ _ => goes_ret ⟨id, rfl⟩)

end Walks

/-! ### What the calls' statements do to a row -/

/-- What no call changes about a token. -/
def token_identity (r : Record) : Option (Uuid × String × String) :=
  (refresh_tokens.prj r).map fun t => (t.user_id, t.token_hash, t.issuer)

/-- The key of the table's index on `token_hash`. -/
def token_key (r : Record) : Option String := (refresh_tokens.prj r).map (·.token_hash)

/-- The row is a revoked token. -/
def IsRevoked (r : Record) : Prop := ∃ t, r = .refresh_token t ∧ t.revoked = some true

/-- The row may become that one: the same token, and revoked if it was. -/
def Outlives (a b : Record) : Prop :=
  token_identity a = token_identity b ∧ (IsRevoked a → IsRevoked b)

theorem Outlives.refl (a : Record) : Outlives a a := ⟨rfl, id⟩

theorem Outlives.trans {a b d : Record} (h : Outlives a b) (h' : Outlives b d) : Outlives a d :=
  ⟨h.1.trans h'.1, fun ha => h'.2 (h.2 ha)⟩

theorem key_of_identity {a b : Record} (h : token_identity a = token_identity b) :
    token_key a = token_key b := by
  have hkey : ∀ r, token_key r = (token_identity r).map fun x => x.2.1 := by
    intro r
    unfold token_key token_identity
    cases refresh_tokens.prj r <;> rfl
  rw [hkey, hkey, h]

/-- What stays a token is the same user's. -/
theorem token_of_identity {t : RefreshToken} {b : Record}
    (h : token_identity (.refresh_token t) = token_identity b) :
    ∃ t', b = .refresh_token t' ∧ t'.user_id = t.user_id ∧ t'.token_hash = t.token_hash ∧
      t'.issuer = t.issuer := by
  obtain ⟨t', ht', heq⟩ := Option.map_eq_some_iff.mp h.symm
  obtain ⟨hu, hh, hi⟩ : t'.user_id = t.user_id ∧ t'.token_hash = t.token_hash ∧
      t'.issuer = t.issuer := by simpa using heq
  exact ⟨t', refresh_tokens.inj_of_prj ht', hu, hh, hi⟩

theorem outlives_revoke {q : RefreshToken → Bool} {a b : Record}
    (ha : refresh_tokens.sel q a = true) (h : refresh_tokens.set (·.revoke) a = some b) :
    Outlives a b ∧ IsRevoked b := by
  obtain ⟨t, rfl, -⟩ := refresh_tokens.sel_iff.mp ha
  obtain rfl := Option.some.inj ((refresh_tokens.set_inj _ t).symm.trans h)
  exact ⟨⟨rfl, fun _ => ⟨t.revoke, rfl, rfl⟩⟩, t.revoke, rfl, rfl⟩

/-! ### What the calls hold and have committed -/

/-- The rows deleted, as the table holds them. -/
def gone (acc : List (Nat × Record)) : List (Nat × Option Record) :=
  acc.map fun x => (x.1, none)

theorem mem_gone {acc : List (Nat × Record)} {d : Nat} {v : Option Record} :
    (d, v) ∈ gone acc ↔ v = none ∧ ∃ r, (d, r) ∈ acc := by
  unfold gone
  rw [List.mem_map]
  constructor
  · intro hpost
    obtain ⟨⟨e, r⟩, hx, heq⟩ := hpost
    cases heq
    exact ⟨rfl, r, hx⟩
  · intro hpost
    obtain ⟨rfl, r, hx⟩ := hpost
    exact ⟨(d, r), hx, rfl⟩

/-- The row has been committed. -/
def OnFile (t : Table Record) (r : Record) : Prop :=
  ∃ (d : Nat) (s : Slot Record) (x : Version Record), t[d]? = some s ∧ x ∈ s.versions ∧
    x.row = some r

/-- Whom a call issues its pair to: a refresh to the owner of a token with the hash it looks for. -/
def IssuesTo (c : Crates) (t : Table Record) : TokenCall → Uuid × String → Prop
  | .refresh cmd, owner => ∃ t₀ : RefreshToken, OnFile t (.refresh_token t₀) ∧
      t₀.token_hash = cmd.hash c ∧ owner = (t₀.user_id, t₀.issuer)
  | .issue_token_pair user_id issuer, owner => owner = (user_id, issuer)
  | _, _ => False

/-- A refresh looks for this row. -/
def LooksFor (c : Crates) (call : TokenCall) (r : Record) : Prop :=
  ∃ cmd, call = .refresh cmd ∧ token_key r = some (cmd.hash c)

/-- The call has taken this row to delete it. -/
structure Taken (c : Crates) (t : Table Record) (call : TokenCall) (x : Nat × Record) : Prop where
  key : LooksFor c call x.2
  row : ∃ s, t[x.1]? = some s ∧ s.current = some x.2

/-- The call has deleted this row. -/
structure UsedUp (c : Crates) (t : Table Record) (k : Nat) (call : TokenCall)
    (x : Nat × Record) : Prop where
  key : LooksFor c call x.2
  row : ∃ y rest, t[x.1]? = some ⟨⟨some k, none⟩ :: y :: rest, none⟩ ∧ y.row = some x.2

/-- The row a call has inserted. -/
def Minted (c : Crates) (owner : Uuid × String) (raw : String) (row : Record) : Prop :=
  ∃ expires_at created_at, row = new_token owner (hash_token c raw) expires_at created_at

/-- What a call in this phase holds, has committed and knows. -/
def TokenFacts (c : Crates) (t : Table Record) (k : Nat) (call : TokenCall) : TokenPhase → Prop
  | .start | .closed | .opened => Tally t k (some []) []
  | .bad => Tally t k none []
  | .looked rows => Tally t k (some []) [] ∧ ∀ r ∈ rows, OnFile t r ∧ LooksFor c call r
  | .found t₀ => Tally t k (some []) [] ∧ IssuesTo c t call (t₀.user_id, t₀.issuer)
  | .owned owner => Tally t k (some []) [] ∧ IssuesTo c t call owner
  | .deleting owner is acc => Tally t k (some (gone acc)) [] ∧
      (acc.map Prod.fst ++ is).Nodup ∧ IssuesTo c t call owner ∧ ∀ x ∈ acc, Taken c t call x
  | .unsigned acc => Tally t k (some (gone acc)) []
  | .minting owner acc _ => Tally t k (some (gone acc)) [] ∧ IssuesTo c t call owner ∧
      ∀ x ∈ acc, Taken c t call x
  | .put owner acc raw row => (∃ d, Tally t k (some (gone acc ++ [(d, some row)])) []) ∧
      Minted c owner raw row ∧ IssuesTo c t call owner ∧ ∀ x ∈ acc, Taken c t call x
  | .exchanged owner acc raw row => (∃ d, Tally t k (some []) (gone acc ++ [(d, some row)])) ∧
      Minted c owner raw row ∧ IssuesTo c t call owner ∧ ∀ x ∈ acc, UsedUp c t k call x
  | .marking is acc => Tally t k (some (marks acc)) [] ∧ (acc.map Prod.fst ++ is).Nodup ∧
      (∃ q, call.revokes c = some q) ∧ ∀ x ∈ acc, IsRevoked x.2
  | .marked acc => Tally t k (some []) (marks acc) ∧ (∃ q, call.revokes c = some q) ∧
      ∀ x ∈ acc, IsRevoked x.2
  | .removing is acc => Tally t k (some (gone acc)) [] ∧ (acc.map Prod.fst ++ is).Nodup
  | .removed acc => Tally t k (some []) (gone acc)

section Facts

variable {c : Crates} {t t' : Table Record} {k me : Nat} {call : TokenCall} {r : Record}

theorem OnFile.effect (h : OnFile t r) (he : Effect me t t') : OnFile t' r := by
  obtain ⟨d, s, x, hs, hx, hrow⟩ := h
  obtain ⟨s', hs', hx'⟩ := he.version_stays hs hx
  exact ⟨d, s', x, hs', hx', hrow⟩

theorem OnFile.of_current {d : Nat} {s : Slot Record} (hs : t[d]? = some s)
    (h : s.current = some r) : OnFile t r := by
  obtain ⟨x, hx, hrow⟩ := Option.bind_eq_some_iff.mp h
  exact ⟨d, s, x, hs, List.mem_of_mem_head? hx, hrow⟩

theorem IssuesTo.effect {owner : Uuid × String} (h : IssuesTo c t call owner)
    (he : Effect me t t') : IssuesTo c t' call owner := by
  cases call with
  | refresh cmd =>
      obtain ⟨t₀, hfile, hhash, howner⟩ := h
      exact ⟨t₀, hfile.effect he, hhash, howner⟩
  | issue_token_pair user_id issuer => exact h
  | _ => exact h.elim

/-- A row in the call's hands stays there while others work. -/
theorem Taken.other {x : Nat × Record} (h : Taken c t call x) (he : Effect me t t') (hk : k ≠ me)
    {H wrote : List (Nat × Option Record)} (ht : Tally t k (some H) wrote)
    (hx : (x.1, none) ∈ H) : Taken c t' call x := by
  obtain ⟨s, hs, hcur⟩ := h.row
  obtain ⟨s₁, hs₁, hl⟩ := (ht.holds rfl x.1 none).mpr hx
  obtain rfl := Option.some.inj (hs.symm.trans hs₁)
  exact ⟨h.key, s, he.slot_of_held hs hl hk, hcur⟩

theorem UsedUp.effect {x : Nat × Record} (h : UsedUp c t k call x) (he : Effect me t t') :
    UsedUp c t' k call x := by
  obtain ⟨y, rest, hs, hrow⟩ := h.row
  obtain ⟨s', hs', hturn⟩ := he.old hs
  obtain rfl := hturn.of_dead rfl rfl
  exact ⟨h.key, y, rest, hs', hrow⟩

/-- What a call deletes it has deleted once it commits. -/
theorem Taken.commit {x : Nat × Record} (h : Taken c t call x)
    {H wrote : List (Nat × Option Record)} (ht : Tally t k (some H) wrote)
    (hx : (x.1, none) ∈ H) : UsedUp c (t.map (Slot.commit k)) k call x := by
  obtain ⟨s, hs, hcur⟩ := h.row
  obtain ⟨s₁, hs₁, hl⟩ := (ht.holds rfl x.1 none).mpr hx
  obtain rfl := Option.some.inj (hs.symm.trans hs₁)
  obtain ⟨y, hy, hrow⟩ := Option.bind_eq_some_iff.mp hcur
  obtain ⟨rest, hrest⟩ := List.head?_eq_some_iff.mp hy
  refine ⟨h.key, y, rest, ?_, hrow⟩
  rw [List.getElem?_map, hs, Option.map_some, Slot.commit_of_own hl, hrest]

theorem TokenFacts.other {ph : TokenPhase} (h : TokenFacts c t k call ph) (he : Effect me t t')
    (hk : k ≠ me) : TokenFacts c t' k call ph := by
  cases ph with
  | start | closed | opened | bad | unsigned acc | removed acc => exact Tally.other h he hk
  | looked rows =>
      refine ⟨h.1.other he hk, fun r hr => ?_⟩
      obtain ⟨hfile, hlooks⟩ := h.2 r hr
      exact ⟨hfile.effect he, hlooks⟩
  | found t₀ => exact ⟨h.1.other he hk, h.2.effect he⟩
  | owned owner => exact ⟨h.1.other he hk, h.2.effect he⟩
  | deleting owner is acc =>
      obtain ⟨ht, hnodup, hto, htaken⟩ := h
      exact ⟨ht.other he hk, hnodup, hto.effect he, fun x hx =>
        (htaken x hx).other he hk ht (mem_gone.mpr ⟨rfl, x.2, hx⟩)⟩
  | minting owner acc raw =>
      obtain ⟨ht, hto, htaken⟩ := h
      exact ⟨ht.other he hk, hto.effect he, fun x hx =>
        (htaken x hx).other he hk ht (mem_gone.mpr ⟨rfl, x.2, hx⟩)⟩
  | put owner acc raw row =>
      obtain ⟨⟨d, ht⟩, hminted, hto, htaken⟩ := h
      exact ⟨⟨d, ht.other he hk⟩, hminted, hto.effect he, fun x hx =>
        (htaken x hx).other he hk ht (List.mem_append_left _ (mem_gone.mpr ⟨rfl, x.2, hx⟩))⟩
  | exchanged owner acc raw row =>
      obtain ⟨⟨d, ht⟩, hminted, hto, hused⟩ := h
      exact ⟨⟨d, ht.other he hk⟩, hminted, hto.effect he, fun x hx => (hused x hx).effect he⟩
  | marking is acc => exact ⟨h.1.other he hk, h.2⟩
  | marked acc => exact ⟨h.1.other he hk, h.2⟩
  | removing is acc => exact ⟨h.1.other he hk, h.2⟩

end Facts

/-! ### The invariant -/

abbrev TokenGhost (c : Crates) : Type := (rotating c).Ghost

theorem tokens_stable (c : Crates) : Stable (P := rotating c)
    (fun _ _ s => s.Evolves Outlives) fun t k g => TokenFacts c t k g.call g.phase where
  commit h := h.commit _
  rollback h := h.rollback _
  calls h _ := h
  facts h he hk := h.other he hk

/-- **The books of the refresh tokens**: what each call holds and has committed, that rows only turn
revoked and are deleted once, and that no two have had one hash. -/
structure TokensKept (c : Crates) (n : Nat) (t : Table Record) (gs : List (TokenGhost c)) :
    Prop where
  journal : Journal (fun _ _ s => s.Evolves Outlives)
    (fun t k g => TokenFacts c t k g.call g.phase) n t gs
  keyed : t.Keyed token_key

/-- The hash has not been in the table. -/
def Unborne (hash : String) (t : Table Record) : Prop :=
  ∀ (d : Nat) (s : Slot Record) (r : Record), t[d]? = some s → s.Bears r → token_key r ≠ some hash

/-- No two rows are tokens of one hash. -/
def DistinctHashes (rows : List Record) : Prop :=
  ∀ {d e : Nat} {r r' : Record} {hash : String}, rows[d]? = some r → rows[e]? = some r' →
    token_key r = some hash → token_key r' = some hash → d = e

section Steps

variable {c : Crates} {n : Nat} {gs : List (TokenGhost c)} {w w' : World} {i : Nat}
  {ch : Choice} {g g' : TokenGhost c}

namespace TokensKept

theorem same (hI : TokensKept c n w.db gs) (hg : gs[i]? = some g) (hcall : g'.call = g.call)
    (hdb : w'.db = w.db) (hf : TokenFacts c w.db i g'.call g'.phase) :
    TokensKept c n w'.db (gs.set i g') := by
  rw [hdb]
  exact ⟨hI.journal.same (tokens_stable c) hg hcall hf, hI.keyed⟩

theorem commit (hI : TokensKept c n w.db gs) (hg : gs[i]? = some g) (hcall : g'.call = g.call)
    (hdb : w'.db = w.db.map (Slot.commit i))
    (hf : TokenFacts c (w.db.map (Slot.commit i)) i g'.call g'.phase) :
    TokensKept c n w'.db (gs.set i g') := by
  rw [hdb]
  exact ⟨hI.journal.commit (tokens_stable c) hg hcall hf, hI.keyed.commit i⟩

theorem rollback (hI : TokensKept c n w.db gs) (hg : gs[i]? = some g) (hcall : g'.call = g.call)
    (hdb : w'.db = w.db.map (Slot.rollback i))
    (hf : TokenFacts c (w.db.map (Slot.rollback i)) i g'.call g'.phase) :
    TokensKept c n w'.db (gs.set i g') := by
  rw [hdb]
  exact ⟨hI.journal.rollback (tokens_stable c) hg hcall hf, hI.keyed.rollback i⟩

/-- A call takes a row. -/
theorem take (hI : TokensKept c n w.db gs) (hg : gs[i]? = some g) (hcall : g'.call = g.call)
    {d : Nat} {s : Slot Record} {old : Record} {v : Option Record} (hs : w.db[d]? = some s)
    (hfree : s.free i = true) (hview : s.view i = some old)
    (hle : ∀ b, v = some b → Outlives old b) (hdb : w'.db = w.db.set d (s.hold i v))
    (hf : TokenFacts c (w.db.set d (s.hold i v)) i g'.call g'.phase) :
    TokensKept c n w'.db (gs.set i g') := by
  rw [hdb]
  refine ⟨hI.journal.take (tokens_stable c) hg hcall hs hfree hview (fun hat => ?_) hf,
    hI.keyed.take hs hview fun hnew => (key_of_identity (hle _ hnew).1).symm⟩
  exact hat.hold (fun h h' => h.trans h') hfree hview hle

/-- A call inserts a row. -/
theorem insert (hI : TokensKept c n w.db gs) (hg : gs[i]? = some g) (hcall : g'.call = g.call)
    {r : Record} {hash : String} (hkey : token_key r = some hash) (hnew : Unborne hash w.db)
    (hdb : w'.db = w.db ++ [Slot.fresh i r])
    (hf : TokenFacts c (w.db ++ [Slot.fresh i r]) i g'.call g'.phase) :
    TokensKept c n w'.db (gs.set i g') := by
  rw [hdb]
  refine ⟨hI.journal.insert (tokens_stable c) hg hcall (.fresh i r) hf, hI.keyed.insert ?_⟩
  intro h hh d s r' hs hr
  rw [hkey] at hh
  rw [← Option.some.inj hh]
  exact hnew d s r' hs hr

end TokensKept

theorem Taken.of_slot {t t' : Table Record} {call : TokenCall} {x : Nat × Record}
    (h : Taken c t call x) (heq : t'[x.1]? = t[x.1]?) : Taken c t' call x := by
  obtain ⟨s, hs, hcur⟩ := h.row
  exact ⟨h.key, s, heq.trans hs, hcur⟩

theorem Taken.insert {t : Table Record} {call : TokenCall} {x : Nat × Record}
    (h : Taken c t call x) (s : Slot Record) : Taken c (t ++ [s]) call x := by
  obtain ⟨s₀, hs₀, -⟩ := h.row
  exact h.of_slot (List.getElem?_append_left (List.getElem?_eq_some_iff.mp hs₀).1)

theorem not_mem_gone {d : Nat} {is : List Nat} {acc : List (Nat × Record)}
    (h : (acc.map Prod.fst ++ d :: is).Nodup) (v : Option Record) : (d, v) ∉ gone acc := by
  intro hv
  obtain ⟨-, r, hr⟩ := mem_gone.mp hv
  exact not_taken h hr rfl

/-- What a refresh reads is on file. -/
theorem found_on_file {rows : List Record} {cmd : RefreshCmd} {wrote : List (Nat × Option Record)}
    (ht : Tally w.db i (some []) wrote)
    (hrows : rows = (w.db.filterMap (Slot.view i)).filter
      (refresh_tokens.sel (HashIs (cmd.hash c)))) {r : Record} (hr : r ∈ rows) :
    OnFile w.db r ∧ LooksFor c (.refresh cmd) r := by
  rw [hrows] at hr
  obtain ⟨hview, hsel⟩ := List.mem_filter.mp hr
  obtain ⟨s, hs, hv⟩ := List.mem_filterMap.mp hview
  obtain ⟨d, hd⟩ := List.mem_iff_getElem?.mp hs
  rw [ht.view hd (by simp)] at hv
  obtain ⟨t, rfl, hhash⟩ := refresh_tokens.sel_iff.mp hsel
  exact ⟨.of_current hd hv, cmd, rfl, congrArg some (beq_iff_eq.mp hhash)⟩

/-- A DELETE reaches a row: it is skipped, or taken as it is. -/
theorem visit_deletes {d : Nat} {is : List Nat} {acc : List (Nat × Record)} {rows : List Record}
    {p : Record → Bool} (ht : Tally w.db i (some (gone acc)) [])
    (hnodup : (acc.map Prod.fst ++ d :: is).Nodup)
    (hans : World.answer c i (.sql (.visit d p Relation.del)) ch w = some (w', Except.ok rows)) :
    (w'.db = w.db ∧ rows = [] ∧ ∀ s, w.db[d]? = some s → s.free i = true ∧ s.hits i p = false) ∨
      ∃ s a, w.db[d]? = some s ∧ s.free i = true ∧ s.view i = some a ∧ s.current = some a ∧
        p a = true ∧ w'.db = w.db.set d (s.hold i none) ∧ rows = [a] ∧
        Tally w'.db i (some (gone (acc ++ [(d, a)]))) [] := by
  rcases World.answer_visit hans with ⟨hdb, hr | ⟨hr, hmiss⟩⟩ |
    ⟨s, a, hs, hfree, hview, hp, hdb, hr⟩
  · cases hr
  · exact .inl ⟨hdb, Except.ok.inj hr, hmiss⟩
  · have hdb : w'.db = w.db.set d (s.hold i none) := hdb
    have htake := ht.take (v := none) hs (not_mem_gone hnodup)
    refine .inr ⟨s, a, hs, hfree, hview, ?_, hp, hdb, Except.ok.inj hr, ?_⟩
    · rw [← ht.view hs (not_mem_gone hnodup)]
      exact hview
    · rw [hdb]
      simpa [gone] using htake

namespace TokensKept

variable {call : TokenCall} {ph : TokenPhase} {log log' : List ((o : Op) × o.Reply)}

/-- A refresh finds a live row. -/
theorem check_step (hI : TokensKept c n w.db gs) {cmd : RefreshCmd} {rows : List Record}
    {t : RefreshToken} {ts : List RefreshToken}
    (hg : gs[i]? = some ⟨.refresh cmd, log, .looked rows⟩) (hdb : w'.db = w.db)
    (hrows : rows.filterMap refresh_tokens.prj = t :: ts) :
    TokensKept c n w'.db (gs.set i ⟨.refresh cmd, log', .found t⟩) := by
  have hf : TokenFacts c w.db i (.refresh cmd) (.looked rows) := hI.journal.facts hg
  refine hI.same hg rfl hdb ⟨hf.1, ?_⟩
  obtain ⟨r, hr, hprj⟩ := List.mem_filterMap.mp (hrows ▸ List.mem_cons_self)
  obtain rfl := refresh_tokens.inj_of_prj hprj
  obtain ⟨hfile, cmd', heq, hkey⟩ := hf.2 _ hr
  cases heq
  exact ⟨t, hfile, Option.some.inj hkey, rfl⟩

/-- The `DELETE` of a refresh reaches a row. -/
theorem take_step (hI : TokensKept c n w.db gs) {cmd : RefreshCmd} {owner : Uuid × String}
    {d : Nat} {is : List Nat} {acc : List (Nat × Record)} {rows : List Record}
    (hg : gs[i]? = some ⟨.refresh cmd, log, .deleting owner (d :: is) acc⟩)
    (hans : World.answer c i (take_token (cmd.hash c) d) ch w = some (w', Except.ok rows)) :
    TokensKept c n w'.db
      (gs.set i ⟨.refresh cmd, log', .deleting owner is (acc ++ rows.map fun x => (d, x))⟩) := by
  have hf : TokenFacts c w.db i (.refresh cmd) (.deleting owner (d :: is) acc) :=
    hI.journal.facts hg
  obtain ⟨ht, hnodup, hto, htaken⟩ := hf
  rcases visit_deletes ht hnodup hans with ⟨hdb, rfl, -⟩ |
    ⟨s, a, hs, hfree, hview, hcur, hp, hdb, rfl, ht'⟩
  · exact hI.same hg rfl hdb ⟨by simpa using ht, by simpa using nodup_missed hnodup, hto,
      by simpa using htaken⟩
  · rw [hdb] at ht'
    have heff : Effect i w.db (w.db.set d (s.hold i none)) := .hold hs hfree hview
    refine hI.take hg rfl hs hfree hview (fun b hb => by cases hb) hdb
      ⟨ht', nodup_taken hnodup, hto.effect heff, fun x hx => ?_⟩
    rcases List.mem_append.mp hx with hx | hx
    · exact (htaken x hx).of_slot (List.getElem?_set_ne (not_taken hnodup hx).symm)
    · obtain rfl := List.mem_singleton.mp hx
      obtain ⟨t, rfl, hhash⟩ := refresh_tokens.sel_iff.mp hp
      exact ⟨⟨cmd, rfl, congrArg some (beq_iff_eq.mp hhash)⟩, _,
        List.getElem?_set_self (List.getElem?_eq_some_iff.mp hs).1, hcur⟩

/-- The new row is stored. -/
theorem put_step (hI : TokensKept c n w.db gs) {owner : Uuid × String}
    {acc : List (Nat × Record)} {raw : String} {expires_at created_at : Time} {row : Record}
    (hg : gs[i]? = some ⟨call, log, .minting owner acc (some raw)⟩)
    (hans : World.answer c i (put_token owner (hash_token c raw) expires_at created_at) ch w =
      some (w', Except.ok row)) (hnew : Unborne (hash_token c raw) w.db) :
    TokensKept c n w'.db (gs.set i ⟨call, log', .put owner acc raw row⟩) := by
  have hf : TokenFacts c w.db i call (.minting owner acc (some raw)) := hI.journal.facts hg
  obtain ⟨ht, hto, htaken⟩ := hf
  rcases World.answer_insert hans with ⟨-, e, hr⟩ | ⟨key, -, -, -, hdb, hr⟩
  · cases hr
  · obtain rfl := Except.ok.inj hr
    refine hI.insert hg rfl rfl hnew hdb
      ⟨⟨_, ht.insert _⟩, ⟨_, _, rfl⟩, hto.effect (.insert _), fun x hx => ?_⟩
    exact (htaken x hx).insert _

/-- The exchange is committed. -/
theorem commit_step (hI : TokensKept c n w.db gs) {owner : Uuid × String}
    {acc : List (Nat × Record)} {raw : String} {row : Record}
    (hg : gs[i]? = some ⟨call, log, .put owner acc raw row⟩)
    (hans : World.answer c i (.sql .commit) ch w = some (w', Except.ok ())) :
    TokensKept c n w'.db (gs.set i ⟨call, log', .exchanged owner acc raw row⟩) := by
  have hf : TokenFacts c w.db i call (.put owner acc raw row) := hI.journal.facts hg
  obtain ⟨⟨d, ht⟩, hminted, hto, htaken⟩ := hf
  have hdb := World.answer_committed hans
  exact hI.commit hg rfl hdb ⟨⟨d, ht.commit⟩, hminted, hto.effect .commit, fun x hx =>
    (htaken x hx).commit ht (List.mem_append_left _ (mem_gone.mpr ⟨rfl, x.2, hx⟩))⟩

/-- An `UPDATE` of the revocation mark reaches a row. -/
theorem mark_step (hI : TokensKept c n w.db gs) {q : RefreshToken → Bool} {d : Nat}
    {is : List Nat} {acc : List (Nat × Record)} {rows : List Record}
    (hg : gs[i]? = some ⟨call, log, .marking (d :: is) acc⟩)
    (hans : World.answer c i (mark_token q d) ch w = some (w', Except.ok rows)) :
    TokensKept c n w'.db
      (gs.set i ⟨call, log', .marking is (acc ++ rows.map fun x => (d, x))⟩) := by
  have hf : TokenFacts c w.db i call (.marking (d :: is) acc) := hI.journal.facts hg
  obtain ⟨ht, hnodup, hcall, hrev⟩ := hf
  rcases World.answer_visit hans with ⟨hdb, hr | ⟨hr, -⟩⟩ |
    ⟨s, a, hs, hfree, hview, hp, hdb, hr⟩
  · cases hr
  · obtain rfl := Except.ok.inj hr
    exact hI.same hg rfl hdb ⟨by simpa using ht, by simpa using nodup_missed hnodup, hcall,
      by simpa using hrev⟩
  · obtain rfl := Except.ok.inj hr
    obtain ⟨t, rfl, -⟩ := refresh_tokens.sel_iff.mp hp
    have hset : refresh_tokens.set (·.revoke) (.refresh_token t) =
        some (.refresh_token t.revoke) := refresh_tokens.set_inj _ t
    have htake := ht.take (v := some (.refresh_token t.revoke)) hs (not_mem_marks hnodup)
    obtain ⟨hle, hrevoked⟩ := outlives_revoke hp hset
    rw [show refresh_tokens.inj t = Record.refresh_token t from rfl, hset] at hdb
    rw [show refresh_tokens.inj t = Record.refresh_token t from rfl, hset]
    refine hI.take hg rfl hs hfree hview (fun b hb => Option.some.inj hb ▸ hle) hdb
      ⟨by simpa [marks] using htake, nodup_taken hnodup, hcall, fun x hx => ?_⟩
    rcases List.mem_append.mp hx with hx | hx
    · exact hrev x hx
    · obtain rfl := List.mem_singleton.mp hx
      exact hrevoked

/-- The cascade of a user's deletion reaches a row. -/
theorem remove_step (hI : TokensKept c n w.db gs) {id : Uuid} {d : Nat} {is : List Nat}
    {acc : List (Nat × Record)} {rows : List Record}
    (hg : gs[i]? = some ⟨.delete_user id, log, .removing (d :: is) acc⟩)
    (hans : World.answer c i (.sql (.visit d (Cascades id) Relation.del)) ch w =
      some (w', Except.ok rows)) :
    TokensKept c n w'.db
      (gs.set i ⟨.delete_user id, log', .removing is (acc ++ rows.map fun x => (d, x))⟩) := by
  have hf : TokenFacts c w.db i (.delete_user id) (.removing (d :: is) acc) :=
    hI.journal.facts hg
  obtain ⟨ht, hnodup⟩ := hf
  rcases visit_deletes ht hnodup hans with ⟨hdb, rfl, -⟩ |
    ⟨s, a, hs, hfree, hview, -, -, hdb, rfl, ht'⟩
  · exact hI.same hg rfl hdb ⟨by simpa using ht, by simpa using nodup_missed hnodup⟩
  · rw [hdb] at ht'
    exact hI.take hg rfl hs hfree hview (fun b hb => by cases hb) hdb ⟨ht', nodup_taken hnodup⟩

/-- A statement that fails on a row leaves the transaction with nothing. -/
theorem visit_fails (hI : TokensKept c n w.db gs) {held : List (Nat × Option Record)} {d : Nat}
    {p : Record → Bool} {f : Record → Option Record} {e : DbError}
    (hg : gs[i]? = some ⟨call, log, ph⟩) (ht : Tally w.db i (some held) [])
    (hans : World.answer c i (.sql (.visit d p f)) ch w = some (w', Except.error e)) :
    TokensKept c n w'.db (gs.set i ⟨call, log', .bad⟩) := by
  have hdb := World.answer_visit_failed hans
  exact hI.same hg rfl hdb ht.fail

/-- A `COMMIT` that fails has undone the transaction. -/
theorem commit_fails (hI : TokensKept c n w.db gs) {held : List (Nat × Option Record)}
    {e : DbError} (hg : gs[i]? = some ⟨call, log, ph⟩) (ht : Tally w.db i (some held) [])
    (hans : World.answer c i (.sql .commit) ch w = some (w', Except.error e)) :
    TokensKept c n w'.db (gs.set i ⟨call, log', .closed⟩) := by
  have hdb := World.answer_commit_failed hans
  exact hI.rollback hg rfl hdb ht.rollback

end TokensKept

/-- One step of a call keeps the books, as long as what it stores has a hash that is new. -/
theorem TokensKept.step (hI : TokensKept c n w.db gs) {call : TokenCall}
    {log : List ((o : Op) × o.Reply)} {ph ph' : TokenPhase} {o : Op} {r : o.Reply}
    (hg : gs[i]? = some ⟨call, log, ph⟩) (hans : World.answer c i o ch w = some (w', r))
    (hstep : TokenStep c call ph o r ph')
    (hnew : ∀ owner hash expires_at created_at,
      o = put_token owner hash expires_at created_at → Unborne hash w.db) :
    TokensKept c n w'.db (gs.set i ⟨call, ⟨o, r⟩ :: log, ph'⟩) := by
  have hf : TokenFacts c w.db i call ph := hI.journal.facts hg
  have hquiet : World.Quiet o → w'.db = w.db := fun ho => World.answer_quiet ho hans
  cases hstep with
  | begin | begin_fails =>
      obtain rfl := World.answer_begin hans
      exact hI.same hg rfl rfl hf
  | look =>
      obtain ⟨rfl, hr | hr⟩ := World.answer_select hans
      · obtain rfl := Except.ok.inj hr
        exact hI.same hg rfl rfl ⟨hf, fun r hr => found_on_file hf rfl hr⟩
      · cases hr
  | look_fails =>
      obtain ⟨rfl, -⟩ := World.answer_select hans
      exact hI.same hg rfl rfl hf
  | check hrows => exact hI.check_step hg (hquiet trivial) hrows
  | drop_looked => exact hI.rollback hg rfl (World.answer_rollback hans) hf.1.rollback
  | drop_found => exact hI.rollback hg rfl (World.answer_rollback hans) hf.1.rollback
  | owner =>
      have hid := (World.answer_retrieve hans).2 _ rfl
      refine hI.same hg rfl (hquiet trivial) ⟨hf.1, ?_⟩
      rw [hid]
      exact hf.2
  | owner_fails => exact hI.same hg rfl (hquiet trivial) hf.1
  | scan =>
      obtain ⟨rfl, rfl⟩ := World.answer_scanned hans
      exact hI.same hg rfl rfl ⟨hf.1, by simpa using nodup_matching i _ _, hf.2, by simp⟩
  | scan_fails =>
      obtain ⟨rfl, -⟩ := World.answer_scan hans
      exact hI.same hg rfl rfl hf.1.fail
  | take => exact hI.take_step hg hans
  | take_fails => exact hI.visit_fails hg hf.1 hans
  | sign => exact hI.same hg rfl (hquiet trivial) ⟨hf.1, hf.2.2.1, hf.2.2.2⟩
  | sign_fails => exact hI.same hg rfl (hquiet trivial) hf.1
  | draw | clock => exact hI.same hg rfl (hquiet trivial) hf
  | put => exact hI.put_step hg hans (hnew _ _ _ _ rfl)
  | put_fails =>
      have hdb := World.answer_insert_failed hans
      exact hI.same hg rfl hdb hf.1.fail
  | commit => exact hI.commit_step hg hans
  | commit_fails =>
      obtain ⟨⟨d, ht⟩, -⟩ := hf
      exact hI.commit_fails hg ht hans
  | drop => exact hI.rollback hg rfl (World.answer_rollback hans) (Tally.rollback hf)
  | dropped => exact hI.rollback hg rfl (World.answer_rollback hans) (Tally.rollback hf)
  | drop_unsigned => exact hI.rollback hg rfl (World.answer_rollback hans) (Tally.rollback hf)
  | unput =>
      obtain ⟨⟨d, ht⟩, -⟩ := hf
      exact hI.rollback hg rfl (World.answer_rollback hans) ht.rollback
  | drop_exchanged =>
      obtain ⟨⟨d, ht⟩, hminted, hto, hused⟩ := hf
      exact hI.rollback hg rfl (World.answer_rollback hans) ⟨⟨d, ht.rollback⟩, hminted,
        hto.effect .rollback, fun x hx => (hused x hx).effect .rollback⟩
  | @scan_marks _ q is hq =>
      obtain ⟨rfl, rfl⟩ := World.answer_scanned hans
      exact hI.same hg rfl rfl ⟨hf, by simpa using nodup_matching i _ _, ⟨q, hq⟩, by simp⟩
  | scan_marks_fails =>
      obtain ⟨rfl, -⟩ := World.answer_scan hans
      exact hI.same hg rfl rfl (Tally.fail hf)
  | mark => exact hI.mark_step hg hans
  | mark_fails => exact hI.visit_fails hg hf.1 hans
  | commit_marks =>
      have hdb := World.answer_committed hans
      exact hI.commit hg rfl hdb ⟨hf.1.commit, hf.2.2.1, hf.2.2.2⟩
  | commit_marks_fails => exact hI.commit_fails hg hf.1 hans
  | scan_removed =>
      obtain ⟨rfl, rfl⟩ := World.answer_scanned hans
      exact hI.same hg rfl rfl ⟨hf, by simpa using nodup_matching i _ _⟩
  | scan_removed_fails =>
      obtain ⟨rfl, -⟩ := World.answer_scan hans
      exact hI.same hg rfl rfl (Tally.fail hf)
  | remove => exact hI.remove_step hg hans
  | remove_fails => exact hI.visit_fails hg hf.1 hans
  | commit_removed =>
      have hdb := World.answer_committed hans
      exact hI.commit hg rfl hdb hf.1.commit
  | commit_removed_fails => exact hI.commit_fails hg hf.1 hans

theorem TokensKept.spawn {t : Table Record} (hI : TokensKept c n t gs) (call : TokenCall) :
    TokensKept c n t (gs ++ [⟨call, [], (rotating c).start call⟩]) := by
  refine ⟨hI.journal.spawn (tokens_stable c) fun ht => ?_, hI.keyed⟩
  cases call with
  | issue_token_pair user_id issuer => exact ⟨ht, List.nodup_nil, rfl, by simp⟩
  | _ => exact ht

/-- Before any call, with rows whose hashes differ. -/
theorem tokens_start {rows : List Record} (hrows : DistinctHashes rows) :
    TokensKept c rows.length (rows.map Slot.loaded) [] := by
  refine ⟨.start fun _ => .loaded _, ?_⟩
  have hslot : ∀ {d : Nat} {s : Slot Record} {r : Record}, (rows.map Slot.loaded)[d]? = some s →
      s.Bears r → rows[d]? = some r := by
    intro d s r hs hr
    rw [List.getElem?_map] at hs
    obtain ⟨r₀, hr₀, rfl⟩ := Option.map_eq_some_iff.mp hs
    obtain ⟨x, hx⟩ := Slot.bears_iff.mp hr
    rw [Option.some.inj (Slot.carries_of_loaded hx).2]
    exact hr₀
  intro d e s s' r r' h hs hs' hr hr' hh hh'
  exact hrows (hslot hs hr) (hslot hs' hr') hh hh'

end Steps

/-! ### Runs -/

/-- An INSERT brings a hash the table has never had: no token is drawn again, and no two hash
alike. -/
def new_hash (cfg : TokenConfig) : Basis.Event Choice TokenCall Expiry → Bool
  | .step i _ =>
      match cfg.next i with
      | some (.sql (.insert _ mk _)) =>
          cfg.shared.db.all fun s => s.values.all fun v => v.bind token_key != token_key (mk 0)
      | _ => true
  | _ => true

section Runs

variable {jwt_svc : JwtService} {n : Nat} {cfg : TokenConfig} {i : Nat} {ch : Choice}

theorem unborne_of_new_hash {owner : Uuid × String} {hash : String} {expires_at created_at : Time}
    (h : new_hash cfg (.step i ch) = true)
    (hnext : cfg.next i = some (put_token owner hash expires_at created_at)) :
    Unborne hash cfg.shared.db := by
  intro d s r hs hr
  simp only [new_hash, hnext, put_token] at h
  have hs := List.all_eq_true.mp h s (List.mem_of_getElem? hs)
  have hr := List.all_eq_true.mp hs _ (Slot.mem_values_of_bears hr)
  simpa [new_token, token_key, refresh_tokens] using hr

theorem tokens_move {ev : Basis.Event Choice TokenCall Expiry}
    {gs gs' : List (TokenGhost jwt_svc.crates)} {w' : World}
    (hI : TokensKept jwt_svc.crates n cfg.shared.db gs) (hnew : new_hash cfg ev = true)
    (hmv : Protocol.Move (exchanging jwt_svc) (rotating jwt_svc.crates) cfg gs ev w' gs') :
    TokensKept jwt_svc.crates n w'.db gs' := by
  cases hmv with
  | spawn call => exact hI.spawn call
  | @step i ch g o s r ph hg hcall hnext hans hstep =>
      refine hI.step hg hans hstep fun owner hash expires_at created_at ho => ?_
      exact unborne_of_new_hash hnew (ho ▸ hnext)
  | env e =>
      change TokensKept jwt_svc.crates n (cfg.shared.expire e).db gs
      rw [World.expire_db]
      exact hI

end Runs

end Authnz
