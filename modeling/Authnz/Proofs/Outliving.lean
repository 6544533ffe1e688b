/-
Credentials that outlive a password rotation.

A login verifies the password in one statement and inserts the session in a later
one; a rotation lists the sessions after it has committed the new hash and revokes
the refresh tokens after it has deleted the sessions.  A login that has been let in
with the old hash and inserts after the listing, and a token request that has been
let in with an old session and inserts after the UPDATE has started, both leave
credentials the rotation never sees.  So do a listing that leaves sessions out, and
a middleware that lets a deleted session's cookie in.  Where nothing of that happens,
whatever the user has after the rotation was obtained with the new password.
-/
import Authnz.Proofs.Granting
import Authnz.Proofs.Revocations

namespace Authnz

open Basis

/-! ### What a rotation is to leave -/

/-- Call `r` has committed this password hash for the user. -/
def HasRotated (t : Table Record) (u : Uuid) (r : Nat) (hash : String) : Prop :=
  ∃ (d : Nat) (s : Slot Record) (y : User), t[d]? = some s ∧
    ⟨some r, some (.user y)⟩ ∈ s.versions ∧ y.id = u ∧ y.password_hash = hash

/-- No other call has changed the user's password. -/
def OnlyRotation (t : Table Record) (u : Uuid) (r : Nat) : Prop :=
  ∀ {d : Nat} {s : Slot Record} {k : Nat} {y : User}, t[d]? = some s →
    ⟨some k, some (.user y)⟩ ∈ s.versions → y.id = u → k = r

/-- Call `k` has created the session at place `d`. -/
def HasCreated (t : Table Record) (k d : Nat) (x : Session) : Prop :=
  ∃ s, t[d]? = some s ∧ ⟨some k, some (.session x)⟩ ∈ s.versions

/-- The row is in the table, at this place. -/
def InPlace (t : Table Record) (d : Nat) (r : Record) : Prop :=
  ∃ s, t[d]? = some s ∧ s.current = some r

/-- The cookie's session is in the table, and the user's. -/
def has_session (c : Crates) (t : Table Record) (cookie : String) (u : Uuid) : Bool :=
  t.any fun s => (s.current.bind sessions.prj).any fun x =>
    c.uuid_parse cookie == some x.id && x.sub == u

/-- The user's credentials are those of the new password. -/
structure CredentialsRotated (c : Crates) (cfg : AccessConfig) (u : Uuid) (r : Nat)
    (hash : String) : Prop where
  /-- A session of the user was created by the password change, or by a login that verified
  against the new hash. -/
  sessions : ∀ {d : Nat} {x : Session}, InPlace cfg.shared.db d (.session x) → x.sub = u →
    ∃ k call, HasCreated cfg.shared.db k d x ∧ cfg.call k = some call ∧
      (k = r ∧ call.changes = true ∨
        ∃ y ∈ logged_into c call (cfg.log k), y.id = u ∧ y.password_hash = hash)
  /-- The password change has created one session at most. -/
  created : ∀ {d e : Nat} {x z : Session}, HasCreated cfg.shared.db r d x →
    HasCreated cfg.shared.db r e z → d = e
  /-- An unrevoked token was issued to a session the revocation has left. -/
  tokens : ∀ {d : Nat}, Live cfg.shared.db u d → ∃ k cookie, HasIssued cfg.shared.db k d ∧
    cfg.call k = some (.jwt cookie) ∧ has_session c cfg.shared.db cookie u = true

/-! ### What has to keep clear of a rotation -/

/-- The database does what it is asked, and so does the listing of the sessions. -/
def database_works (cfg : AccessConfig) : Basis.Event Choice AccessCall Expiry → Bool
  | .step i ch =>
      match cfg.next i, ch with
      | some (.sql _), .fail => false
      | some (.list_sessions _), .refuse _ => false
      | _, _ => true
  | _ => true

/-- The database generates no session id again. -/
def new_session_id (cfg : AccessConfig) : Basis.Event Choice AccessCall Expiry → Bool
  | .step i ch =>
      match cfg.next i, World.outcome ch with
      | some (.sql (.insert _ mk _)), some (.done n) =>
          (session_key (mk n)).isNone || cfg.shared.db.all fun s =>
            s.values.all fun v => v.bind session_key != session_key (mk n)
      | _, _ => true
  | _ => true

/-- The listing names every session the user has, and none but sessions that were there. -/
def lists_all (cfg : AccessConfig) : Basis.Event Choice AccessCall Expiry → Bool
  | .step i (.sessions l) =>
      match cfg.next i with
      | some (.list_sessions (some u)) =>
          ((cfg.shared.rows Authnz.sessions).all fun x => x.sub != u || l.any fun z => z.id == x.id) &&
            l.all fun z => cfg.shared.db.any fun s => s.versions.any fun x => x.row == some (.session z)
      | _ => true
  | _ => true

/-- A token request is let in with a session that is in the table. -/
def lets_in_sessions (c : Crates) (cfg : AccessConfig) :
    Basis.Event Choice AccessCall Expiry → Bool
  | .step i (.identity id) =>
      match cfg.call i with
      | some (.jwt cookie) => has_session c cfg.shared.db cookie id.sub
      | _ => true
  | _ => true

/-- A token of the user's, to tell whose tokens an UPDATE revokes. -/
def token_for (u : Uuid) : Record :=
  .refresh_token
    { user_id := u, token_hash := "", issuer := "", expires_at := 0, revoked := none,
      created_at := 0 }

/-- The account has another hash by now. -/
def outdated (t : Table Record) (y : User) : Bool :=
  t.any fun s => (s.current.bind users.prj).any fun z =>
    z.id == y.id && z.password_hash != y.password_hash

/-- When a user's sessions are listed, no login that was let in with a replaced hash is still in
progress. -/
def no_login_half_way (c : Crates) (cfg : AccessConfig) :
    Basis.Event Choice AccessCall Expiry → Bool
  | .step i _ =>
      match cfg.next i with
      | some (.list_sessions (some u)) => cfg.threads.all fun th =>
          th.prog.next.isNone || (logged_into c th.call th.log).all fun y =>
            y.id != u || !outdated cfg.shared.db y
      | _ => true
  | _ => true

/-- When the revocation of a user's tokens starts, no token request that was let in with a
deleted session is still in progress. -/
def no_token_half_way (c : Crates) (cfg : AccessConfig) :
    Basis.Event Choice AccessCall Expiry → Bool
  | .step i _ =>
      match cfg.next i with
      | some (.sql (.scan p)) => cfg.threads.all fun th => match th.call with
          | .jwt cookie => th.prog.next.isNone || (identities th.log).all fun id =>
              !p (token_for id.sub) || has_session c cfg.shared.db cookie id.sub
          | _ => true
      | _ => true
  | _ => true

/-- What the calls rely on: the database fails nothing and generates no session id again, the
listing is whole, and the middleware knows which sessions there are. -/
def relied_on (c : Crates) (cfg : AccessConfig) (ev : Basis.Event Choice AccessCall Expiry) : Bool :=
  database_works cfg ev && new_session_id cfg ev && lists_all cfg ev && lets_in_sessions c cfg ev

/-- Logins and token requests keep clear of rotations. -/
def clear_of_rotations (c : Crates) (cfg : AccessConfig)
    (ev : Basis.Event Choice AccessCall Expiry) : Bool :=
  no_login_half_way c cfg ev && no_token_half_way c cfg ev

/-! ### How far a call has got -/

namespace AccessPhase

/-- A login that has been let in with the hash in this row and has not created its session. -/
def Entering (y : User) : AccessPhase → Prop
  | .entered z | .logged_in z => z = y
  | _ => False

/-- A token request that has been let in with this identity and has not issued its token. -/
def Accepting (id : Identity) : AccessPhase → Prop
  | .accepted i | .put i => i = id
  | _ => False

/-- The call has created the session it was to create. -/
def Created : AccessPhase → Prop
  | .admitted | .settled _ _ | .marking _ _ _ _ | .done _ _ => True
  | _ => False

/-- A rotation that has listed the user's sessions. -/
def Listed (u : Uuid) : AccessPhase → Prop
  | .sweeping v _ _ | .taking v _ _ _ _ _ | .renewing v _ _ | .renewed v _ | .settled v _
  | .halted v _ | .marking v _ _ _ | .done v _ => v = u
  | _ => False

/-- A rotation that has listed the user's tokens. -/
def Revoking (u : Uuid) : AccessPhase → Prop
  | .marking v _ _ _ | .done v _ => v = u
  | _ => False

/-- The session at place `d` is one the rotation has listed and not deleted. -/
def Unswept (d : Nat) (x : Session) : AccessPhase → Prop
  | .sweeping _ _ todo => ∃ z ∈ todo, z.id = x.id
  | .taking _ _ z todo is acc =>
      (∃ z ∈ todo, z.id = x.id) ∨ z.id = x.id ∧ d ∈ acc.map Prod.fst ++ is
  | _ => False

/-- The token at place `d` is one the rotation has listed and not revoked. -/
def Unmarked (d : Nat) : AccessPhase → Prop
  | .marking _ _ is acc => d ∈ acc.map Prod.fst ++ is
  | _ => False

theorem Revoking.listed {u : Uuid} {ph : AccessPhase} (h : ph.Revoking u) : ph.Listed u := by
  cases ph with
  | marking | done => exact h
  | _ => exact h.elim

theorem Listed.since {u : Uuid} {ph : AccessPhase} (h : ph.Listed u) : ∃ hash, ph.Since u hash := by
  cases ph with
  | sweeping | taking | renewing | renewed | settled | halted | marking | done => exact ⟨_, h, rfl⟩
  | _ => exact h.elim

theorem Since.hash_eq {u : Uuid} {hash hash' : String} {ph : AccessPhase} (h : ph.Since u hash)
    (h' : ph.Since u hash') : hash = hash' := by
  cases ph with
  | rotated | sweeping | taking | renewing | renewed | settled | halted | marking | done =>
      exact h.2.symm.trans h'.2
  | _ => exact h.elim

end AccessPhase

section Phases

variable {c : Crates} {call : AccessCall} {ph ph' : AccessPhase} {o : Op} {r : o.Reply} {u : Uuid}
  {hash : String}

/-- A rotation starts with the commit of the new hash. -/
theorem AccessStep.since_cases (h : AccessStep c call ph o r ph') (hworks : ¬ Fault o r)
    (hph : ph ≠ .failed) (h' : ph'.Since u hash) : ph.Since u hash ∨
      ∃ spent acc, ph = .updating u hash spent [] acc ∧ o = .sql .commit := by
  cases h with
  | fault h => exact absurd h hworks
  | lost => exact absurd rfl hph
  | rotate =>
      obtain ⟨rfl, rfl⟩ := h'
      exact .inr ⟨_, _, rfl, rfl⟩
  | scan_tokens hph => rcases hph with rfl | rfl <;> exact .inl h'
  | read => rcases entry_cases c call _ with he | ⟨y, he⟩ <;> rw [he] at h' <;> exact h'.elim
  | _ => first
    | exact h'.elim
    | exact .inl h'

/-- What has been committed stays so. -/
theorem AccessStep.since (h : AccessStep c call ph o r ph') (hworks : ¬ Fault o r)
    (hph : ph.Since u hash) : ph'.Since u hash := by
  cases h with
  | fault h => exact absurd h hworks
  | lost => exact hph.elim
  | scan_tokens hph' => rcases hph' with rfl | rfl <;> exact hph
  | _ => first
    | exact hph.elim
    | exact hph

/-- A login is let in by what it has just read. -/
theorem AccessStep.entering_cases (h : AccessStep c call ph o r ph') (hworks : ¬ Fault o r)
    (hph : ph ≠ .failed) {y : User} (h' : ph'.Entering y) : ph.Entering y ∨
      ∃ p rows ys, ph = .start ∧
        (⟨o, r⟩ : (o : Op) × o.Reply) = ⟨.sql (.select p), Except.ok rows⟩ ∧
        rows.filterMap users.prj = y :: ys := by
  cases h with
  | fault h => exact absurd h hworks
  | lost => exact absurd rfl hph
  | @read _ q rows hq =>
      rcases entry_cases c call rows with he | ⟨z, he⟩
      · rw [he] at h'
        exact h'.elim
      · rw [he] at h'
        obtain rfl : z = y := h'
        have hread : z ∈ logged_into c call [⟨.sql (.select (users.sel q)), Except.ok rows⟩] ∧
            ∃ ys, rows.filterMap users.prj = z :: ys := entry_entered he
        obtain ⟨-, ys, hys⟩ := hread
        exact .inr ⟨_, rows, ys, rfl, rfl, hys⟩
  | _ => first
    | exact h'.elim
    | exact .inl h'

/-- A token request is let in by the session middleware. -/
theorem AccessStep.accepting_cases (h : AccessStep c call ph o r ph') (hworks : ¬ Fault o r)
    (hph : ph ≠ .failed) {id : Identity} (h' : ph'.Accepting id) : ph.Accepting id ∨
      ∃ cookie, call = .jwt cookie ∧
        (⟨o, r⟩ : (o : Op) × o.Reply) = ⟨.authenticate cookie, (some id : Option Identity)⟩ := by
  cases h with
  | fault h => exact absurd h hworks
  | lost => exact absurd rfl hph
  | @accept cookie i =>
      obtain rfl : i = id := h'
      exact .inr ⟨cookie, rfl, rfl⟩
  | read => rcases entry_cases c call _ with he | ⟨y, he⟩ <;> rw [he] at h' <;> exact h'.elim
  | _ => first
    | exact h'.elim
    | exact .inl h'

/-- A rotation lists the user's sessions after the commit. -/
theorem AccessStep.listed_cases (h : AccessStep c call ph o r ph') (hworks : ¬ Fault o r)
    (hph : ph ≠ .failed) (h' : ph'.Listed u) : ph.Listed u ∨
      ∃ hash l, ph = .rotated u hash ∧
        (⟨o, r⟩ : (o : Op) × o.Reply) = ⟨.list_sessions (some u), Except.ok l⟩ ∧
        ph' = .sweeping u hash l := by
  cases h with
  | fault h => exact absurd h hworks
  | lost => exact absurd rfl hph
  | @list _ v hash l =>
      obtain rfl : v = u := h'
      exact .inr ⟨hash, l, rfl, rfl, rfl⟩
  | scan_tokens hph => rcases hph with rfl | rfl <;> exact .inl h'
  | read => rcases entry_cases c call _ with he | ⟨y, he⟩ <;> rw [he] at h' <;> exact h'.elim
  | _ => first
    | exact h'.elim
    | exact .inl h'

/-- A rotation lists the user's tokens after the sessions. -/
theorem AccessStep.revoking_cases (h : AccessStep c call ph o r ph') (hworks : ¬ Fault o r)
    (hph : ph ≠ .failed) (h' : ph'.Revoking u) : ph.Revoking u ∨
      ∃ hash is, (ph = .sweeping u hash [] ∨ ph = .settled u hash) ∧
        (⟨o, r⟩ : (o : Op) × o.Reply) =
          ⟨.sql (.scan (refresh_tokens.sel (TokenOf u))), Except.ok is⟩ ∧
        ph' = .marking u hash is [] := by
  cases h with
  | fault h => exact absurd h hworks
  | lost => exact absurd rfl hph
  | @scan_tokens _ _ v hash is hph =>
      obtain rfl : v = u := h'
      exact .inr ⟨hash, is, hph, rfl, rfl⟩
  | read => rcases entry_cases c call _ with he | ⟨y, he⟩ <;> rw [he] at h' <;> exact h'.elim
  | _ => first
    | exact h'.elim
    | exact .inl h'

theorem AccessStep.created (h : AccessStep c call ph o r ph') (hworks : ¬ Fault o r)
    (hph : ph.Created) : ph'.Created := by
  cases h with
  | fault h => exact absurd h hworks
  | lost => exact hph.elim
  | scan_tokens => trivial
  | _ => first
    | exact hph.elim
    | trivial

end Phases

/-! ### What the calls have committed -/

section Facts

variable {c : Crates} {rows : List Record} {t : Table Record} {k d : Nat} {call : AccessCall}
  {log : List ((o : Op) × o.Reply)} {ph : AccessPhase}

theorem AccessFacts.entering (h : AccessFacts c rows t k call log ph) {y : User}
    (hph : ph.Entering y) : y ∈ logged_into c call log := by
  cases ph with
  | entered z | logged_in z =>
      obtain rfl : z = y := hph
      exact h.2
  | _ => exact hph.elim

theorem AccessFacts.accepting (h : AccessFacts c rows t k call log ph) {id : Identity}
    (hph : ph.Accepting id) : AcceptedAs call log id := by
  cases ph with
  | accepted i | put i =>
      obtain rfl : i = id := hph
      exact h.2
  | _ => exact hph.elim

theorem AccessFacts.works (h : AccessFacts c rows t k call log ph) : ph ≠ .failed := by
  rintro rfl
  exact h

/-- A call is about to create one session at most. -/
theorem AccessFacts.creating (h : AccessFacts c rows t k call log ph) {s : Slot Record}
    {x : Session} (hs : t[d]? = some s) (hl : s.lock = some (k, some (.session x))) :
    ¬ ph.Created ∧ ∃ held, t.Holds k [held] := by
  generalize hv : some (Record.session x) = v at hl
  cases h.held hs hl with
  | login =>
      obtain ⟨⟨e, z, ht, -⟩, -⟩ := h
      exact ⟨id, _, ht⟩
  | renewal =>
      obtain ⟨⟨e, z, ht, -⟩, -⟩ := h
      exact ⟨id, _, ht⟩
  | reset hr =>
      obtain ⟨p, rfl⟩ := hr
      cases hv
  | account hr =>
      obtain ⟨y, rfl, -⟩ := hr
      cases hv
  | revoked hr =>
      obtain ⟨tok, rfl, -⟩ := hr
      cases hv
  | token | deleted => cases hv

end Facts

/-- Whoever has committed a hash has rotated that password, and whoever has committed a session
has created this one alone. -/
structure Credited {c : Crates} (t : Table Record) (gs : List (AccessGhost c)) : Prop where
  rotated : ∀ {d : Nat} {s : Slot Record} {k : Nat} {y : User}, t[d]? = some s →
    ⟨some k, some (.user y)⟩ ∈ s.versions →
    ∃ g, gs[k]? = some g ∧ g.phase.Since y.id y.password_hash
  created : ∀ {k d : Nat} {x : Session}, HasCreated t k d x →
    ∃ g, gs[k]? = some g ∧ g.phase.Created
  once : ∀ {k d e : Nat} {x z : Session}, HasCreated t k d x → HasCreated t k e z → d = e

section Steps

variable {c : Crates} {rows : List Record} {gs : List (AccessGhost c)} {w w' : World} {i : Nat}
  {ch : Choice} {call : AccessCall} {log : List ((o : Op) × o.Reply)} {ph ph' : AccessPhase}
  {o : Op} {r : o.Reply}

/-- A call that commits a session has then created it. -/
theorem AccessStep.creates (h : AccessStep c call ph o r ph') (hworks : ¬ Fault o r)
    (ho : o = .sql .commit) {t : Table Record} {d : Nat} {x : Session}
    (hheld : HeldIn t d ph (some (.session x))) : ph'.Created := by
  subst ho
  generalize hv : some (Record.session x) = v at hheld
  cases hheld with
  | login =>
      cases h with
      | fault h => exact absurd h hworks
      | enter => trivial
  | renewal =>
      cases h with
      | fault h => exact absurd h hworks
      | settle => trivial
  | reset hr =>
      obtain ⟨p, rfl⟩ := hr
      cases hv
  | account hr =>
      obtain ⟨y, rfl, -⟩ := hr
      cases hv
  | revoked hr =>
      obtain ⟨tok, rfl, -⟩ := hr
      cases hv
  | token | deleted => cases hv

/-- A call that commits an account has then rotated its password. -/
theorem AccessStep.rotates (h : AccessStep c call ph o r ph') (hworks : ¬ Fault o r)
    (ho : o = .sql .commit) {t : Table Record} {d : Nat} {y : User}
    (hheld : HeldIn t d ph (some (.user y))) : ph'.Since y.id y.password_hash := by
  subst ho
  generalize hv : some (Record.user y) = v at hheld
  cases hheld with
  | account hr =>
      obtain ⟨z, rfl, hid, hhash⟩ := hr
      cases hv
      cases h with
      | fault h => exact absurd h hworks
      | rotate => exact ⟨hid.symm, hhash.symm⟩
  | reset hr =>
      obtain ⟨p, rfl⟩ := hr
      cases hv
  | revoked hr =>
      obtain ⟨tok, rfl, -⟩ := hr
      cases hv
  | login | renewal | token | deleted => cases hv

/-- **Every step credits what it commits to the caller.** -/
theorem Credited.step (hC : Credited w.db gs) (hI : AccessKept c rows w.db gs)
    (hg : gs[i]? = some ⟨call, log, ph⟩) (hans : World.answer c i o ch w = some (w', r))
    (hstep : AccessStep c call ph o r ph') (hworks : ¬ Fault o r) :
    Credited w'.db (gs.set i ⟨call, ⟨o, r⟩ :: log, ph'⟩) := by
  have hf : AccessFacts c rows w.db i call log ph := hI.journal.facts hg
  have hpart := hstep.part hf.works
  have hset : (gs.set i ⟨call, ⟨o, r⟩ :: log, ph'⟩)[i]? = some ⟨call, ⟨o, r⟩ :: log, ph'⟩ :=
    List.getElem?_set_self (List.getElem?_eq_some_iff.mp hg).1
  -- a session in the table was there before, or the caller has held it and commits
  have hcreated : ∀ {k d : Nat} {x : Session}, HasCreated w'.db k d x →
      HasCreated w.db k d x ∨ k = i ∧ o = .sql .commit ∧
        ∃ s, w.db[d]? = some s ∧ s.lock = some (i, some (.session x)) := by
    rintro k d x ⟨s', hs', hx⟩
    rcases hpart.version_cases hans hs' hx with ⟨s, hs, hx⟩ | ⟨ho, s, v, hs, hl, heq⟩
    · exact .inl ⟨s, hs, hx⟩
    · cases heq
      exact .inr ⟨rfl, ho, s, hs, hl⟩
  refine ⟨fun {d s' k y} hs' hy => ?_, fun {k d x} hx => ?_, fun {k d e x z} hx hz => ?_⟩
  · rcases hpart.version_cases hans hs' hy with ⟨s, hs, hy⟩ | ⟨ho, s, v, hs, hl, heq⟩
    · obtain ⟨g, hk, hsince⟩ := hC.rotated hs hy
      by_cases hne : i = k
      · subst hne
        obtain rfl := Option.some.inj (hg.symm.trans hk)
        exact ⟨_, hset, hstep.since hworks hsince⟩
      · exact ⟨g, by rw [List.getElem?_set_ne hne, hk], hsince⟩
    · cases heq
      exact ⟨_, hset, hstep.rotates hworks ho (hf.held hs hl)⟩
  · rcases hcreated hx with hx | ⟨rfl, ho, s, hs, hl⟩
    · obtain ⟨g, hk, hph⟩ := hC.created hx
      by_cases hne : i = k
      · subst hne
        obtain rfl := Option.some.inj (hg.symm.trans hk)
        exact ⟨_, hset, hstep.created hworks hph⟩
      · exact ⟨g, by rw [List.getElem?_set_ne hne, hk], hph⟩
    · exact ⟨_, hset, hstep.creates hworks ho (hf.held hs hl)⟩
  · have hnew : ∀ {d e : Nat} {x z : Session}, HasCreated w.db i d x →
        ∀ s, w.db[e]? = some s → s.lock ≠ some (i, some (.session z)) := by
      intro d e x z hx s hs hl
      obtain ⟨g, hk, hph⟩ := hC.created hx
      obtain rfl := Option.some.inj (hg.symm.trans hk)
      exact (hf.creating hs hl).1 hph
    rcases hcreated hx with hx | ⟨rfl, -, s, hs, hl⟩
    · rcases hcreated hz with hz | ⟨rfl, -, s, hs, hl⟩
      · exact hC.once hx hz
      · exact absurd hl (hnew hx s hs)
    · rcases hcreated hz with hz | ⟨-, -, s', hs', hl'⟩
      · exact absurd hl (hnew hz s hs)
      · obtain ⟨-, held, ht⟩ := hf.creating hs hl
        have hd := List.mem_singleton.mp ((ht _ _).mp ⟨s, hs, hl⟩)
        have he := List.mem_singleton.mp ((ht _ _).mp ⟨s', hs', hl'⟩)
        exact (Prod.mk.inj (hd.trans he.symm)).1

end Steps

/-! ### What a rotation has enforced -/

/-- Everybody who gets in as this user does so with a hash the rotation has committed, and every
credential the rotation has not still to take away was obtained that way. -/
structure Enforced {c : Crates} (t : Table Record) (gs : List (AccessGhost c)) (u : Uuid)
    (r : Nat) : Prop where
  hashes : ∀ {g : AccessGhost c} {hash : String}, gs[r]? = some g → g.phase.Since u hash →
    ∀ {d : Nat} {y : User}, InPlace t d (.user y) → y.id = u → HasRotated t u r y.password_hash
  entering : ∀ {g : AccessGhost c}, gs[r]? = some g → g.phase.Listed u →
    ∀ {k : Nat} {h : AccessGhost c} {y : User}, gs[k]? = some h → h.phase.Entering y → y.id = u →
      HasRotated t u r y.password_hash
  listed : ∀ {g : AccessGhost c}, gs[r]? = some g → g.phase.Listed u →
    ∀ {d : Nat} {x : Session}, InPlace t d (.session x) → x.sub = u → g.phase.Unswept d x ∨
      ∃ (k : Nat) (h : AccessGhost c), gs[k]? = some h ∧ HasCreated t k d x ∧
        (k = r ∧ h.call.changes = true ∨ ∃ y ∈ logged_into c h.call h.log, y.id = u ∧
          HasRotated t u r y.password_hash)
  accepting : ∀ {g : AccessGhost c}, gs[r]? = some g → g.phase.Revoking u →
    ∀ {k : Nat} {h : AccessGhost c} {id : Identity} {cookie : String}, gs[k]? = some h →
      h.call = .jwt cookie → h.phase.Accepting id → id.sub = u →
      has_session c t cookie u = true
  tokens : ∀ {g : AccessGhost c}, gs[r]? = some g → g.phase.Revoking u →
    ∀ {d : Nat}, Live t u d → g.phase.Unmarked d ∨
      ∃ (k : Nat) (h : AccessGhost c) (cookie : String), gs[k]? = some h ∧ HasIssued t k d ∧
        h.call = .jwt cookie ∧ has_session c t cookie u = true

/-- The user has an account. -/
def HasAccount (rows : List Record) (u : Uuid) : Prop :=
  ∃ (d : Nat) (y : User), rows[d]? = some (.user y) ∧ y.id = u

section Effects

variable {c : Crates} {rows : List Record} {t t' : Table Record} {gs : List (AccessGhost c)}
  {k r me d : Nat} {u : Uuid} {hash cookie : String}

theorem has_session_iff : has_session c t cookie u = true ↔
    ∃ d x, InPlace t d (.session x) ∧ c.uuid_parse cookie = some x.id ∧ x.sub = u := by
  unfold has_session
  rw [List.any_eq_true]
  constructor
  · rintro ⟨s, hs, hany⟩
    obtain ⟨x, hx, hid⟩ := (Option.any_eq_true _ _).mp hany
    obtain ⟨row, hrow, hprj⟩ := Option.bind_eq_some_iff.mp hx
    obtain rfl := sessions.inj_of_prj hprj
    obtain ⟨d, hd⟩ := List.mem_iff_getElem?.mp hs
    rw [Bool.and_eq_true, beq_iff_eq, beq_iff_eq] at hid
    exact ⟨d, x, ⟨s, hd, hrow⟩, hid⟩
  · rintro ⟨d, x, ⟨s, hs, hcur⟩, hid, hsub⟩
    refine ⟨s, List.mem_of_getElem? hs, ?_⟩
    rw [hcur, Option.bind_some]
    exact Bool.and_eq_true_iff.mpr ⟨beq_iff_eq.mpr hid, beq_iff_eq.mpr hsub⟩

theorem HasRotated.effect (h : HasRotated t u r hash) (he : Effect me t t') :
    HasRotated t' u r hash := by
  obtain ⟨d, s, y, hs, hv, hy⟩ := h
  obtain ⟨s', hs', hv'⟩ := he.version_stays hs hv
  exact ⟨d, s', y, hs', hv', hy⟩

theorem HasCreated.effect {x : Session} (h : HasCreated t k d x) (he : Effect me t t') :
    HasCreated t' k d x := by
  obtain ⟨s, hs, hv⟩ := h
  exact he.version_stays hs hv

theorem OnlyRotation.before (h : OnlyRotation t' u r) (he : Effect me t t') :
    OnlyRotation t u r := by
  intro d s k y hs hv hid
  obtain ⟨s', hs', hv'⟩ := he.version_stays hs hv
  exact h hs' hv' hid

/-- Whoever has replaced the user's password is the one rotation. -/
theorem AccessKept.only (hI : AccessKept c rows t gs) (honly : OnlyRotation t u r)
    (hu : HasAccount rows u) {g : AccessGhost c} (hg : gs[k]? = some g)
    (hph : g.phase.Since u hash) : k = r := by
  obtain ⟨d, y₀, hd, hid⟩ := hu
  obtain ⟨s, y, hs, hv, hyid, -⟩ := (hI.journal.facts hg).rotates hph d y₀ hd hid
  exact honly hs hv hyid

/-- The user's account is in the table. -/
theorem AccessKept.account (hI : AccessKept c rows t gs) (hu : HasAccount rows u) :
    ∃ d y, InPlace t d (.user y) ∧ y.id = u := by
  obtain ⟨d, y₀, hd, rfl⟩ := hu
  have hlt : d < t.length :=
    Nat.lt_of_lt_of_le (List.getElem?_eq_some_iff.mp hd).1 hI.journal.length
  have hs : t[d]? = some t[d] := List.getElem?_eq_getElem hlt
  obtain ⟨hat, hv⟩ := (hI.journal.slots hs).stays hd
  obtain ⟨row, hcur, hrow⟩ := hat.current hv
  obtain ⟨y, hy, hid⟩ := Option.map_eq_some_iff.mp hrow
  exact ⟨d, y, ⟨_, hs, by rw [hcur, users.inj_of_prj hy]; rfl⟩, hid⟩

end Effects

section Own

variable {c : Crates} {rows : List Record} {gs : List (AccessGhost c)} {w w' : World} {i d : Nat}
  {u : Uuid} {ch : Choice} {call : AccessCall} {log : List ((o : Op) × o.Reply)}
  {ph ph' : AccessPhase} {o : Op} {r : o.Reply}

/-- A session the rotation has listed stays so until it is deleted. -/
theorem AccessStep.unswept (h : AccessStep c call ph o r ph') (hworks : ¬ Fault o r)
    (hf : AccessFacts c rows w.db i call log ph)
    (hans : World.answer c i o ch w = some (w', r)) {x : Session}
    (hx : InPlace w.db d (.session x)) (hx' : InPlace w'.db d (.session x))
    (hph : ph.Unswept d x) : ph'.Unswept d x := by
  obtain ⟨s, hs, hcur⟩ := hx
  cases h with
  | fault h => exact absurd h hworks
  | lost => exact hf.elim
  | @scan_session _ u hash z todo is =>
      obtain ⟨y, hy, hid⟩ := hph
      rcases List.mem_cons.mp hy with rfl | hy
      · obtain ⟨-, rfl⟩ := World.answer_scanned hans
        refine .inr ⟨hid, mem_matching.mpr ⟨s, hs, hf.1.hits hs (by simp) hcur ?_⟩⟩
        exact sessions.sel_iff.mpr ⟨x, rfl, beq_iff_eq.mpr hid.symm⟩
      · exact .inl ⟨y, hy, hid⟩
  | @take _ u hash z todo e is acc rows' =>
      rcases hph with hph | ⟨hid, hmem⟩
      · exact .inl hph
      refine .inr ⟨hid, ?_⟩
      obtain ⟨ht, hnodup, -⟩ := hf
      rcases World.answer_visit hans with ⟨-, hr | ⟨hr, hmiss⟩⟩ | ⟨s', a, -, -, -, -, -, hr⟩
      · cases hr
      · -- a row that is missed is not this one
        have hne : d ≠ e := by
          rintro rfl
          have hhits : s.hits i (sessions.sel (SessionIs z.id)) = true :=
            ht.hits hs (not_mem_gone hnodup) hcur
              (sessions.sel_iff.mpr ⟨x, rfl, beq_iff_eq.mpr hid.symm⟩)
          rw [(hmiss s hs).2] at hhits
          cases hhits
        obtain rfl := Except.ok.inj hr
        simpa [hne] using hmem
      · obtain rfl := Except.ok.inj hr
        simpa [or_assoc] using hmem
  | @evict _ u hash z todo acc =>
      rcases hph with hph | ⟨-, hmem⟩
      · exact hph
      rw [List.append_nil] at hmem
      obtain ⟨e, he, rfl⟩ := List.mem_map.mp hmem
      obtain ⟨s₁, hs₁, hl⟩ := (hf.1 e.1 none).mpr (mem_gone.mpr ⟨rfl, e.2, he⟩)
      obtain ⟨s', hs', hcur'⟩ := hx'
      have hdb := World.answer_committed hans
      rw [hdb, List.getElem?_map, hs₁, Option.map_some, Slot.commit_of_own hl] at hs'
      obtain rfl := Option.some.inj hs'
      cases hcur'
  | owner | owner_fails =>
      obtain ⟨y, hy, -⟩ := hph
      cases hy
  | scan_tokens hph' =>
      rcases hph' with rfl | rfl
      · obtain ⟨y, hy, -⟩ := hph
        cases hy
      · exact hph.elim
  | _ => exact hph.elim

/-- A token the rotation has listed stays so until it is revoked. -/
theorem AccessStep.unmarked (h : AccessStep c call ph o r ph') (hworks : ¬ Fault o r)
    (hf : AccessFacts c rows w.db i call log ph)
    (hans : World.answer c i o ch w = some (w', r)) (hlive : Live w.db u d)
    (hlive' : Live w'.db u d) (hrev : ph.Revoking u) (hph : ph.Unmarked d) : ph'.Unmarked d := by
  obtain ⟨s, tok, hs, hcur, hid, -⟩ := hlive
  cases h with
  | fault h => exact absurd h hworks
  | lost => exact hf.elim
  | @mark _ v hash e is acc rows' =>
      obtain rfl : v = u := hrev
      obtain ⟨ht, hnodup, -⟩ := hf
      have hmem : d ∈ acc.map Prod.fst ++ e :: is := hph
      rcases World.answer_visit hans with ⟨-, hr | ⟨hr, hmiss⟩⟩ | ⟨s', a, -, -, -, -, -, hr⟩
      · cases hr
      · have hne : d ≠ e := by
          rintro rfl
          have hhits : s.hits i (refresh_tokens.sel (TokenOf v)) = true :=
            ht.hits hs (not_mem_marks hnodup) hcur
              (refresh_tokens.sel_iff.mpr ⟨tok, rfl, beq_iff_eq.mpr hid⟩)
          rw [(hmiss s hs).2] at hhits
          cases hhits
        obtain rfl := Except.ok.inj hr
        change d ∈ _ ++ _
        simpa [hne] using hmem
      · obtain rfl := Except.ok.inj hr
        change d ∈ _ ++ _
        simpa [or_assoc] using hmem
  | @finish _ v hash acc =>
      have hmem : d ∈ acc.map Prod.fst ++ [] := hph
      rw [List.append_nil] at hmem
      obtain ⟨e, he, rfl⟩ := List.mem_map.mp hmem
      obtain ⟨s₁, hs₁, hl⟩ := (hf.1 e.1 (some e.2)).mpr (List.mem_map.mpr ⟨e, he, rfl⟩)
      obtain ⟨s', tok', hs', hcur', -, hno⟩ := hlive'
      have hdb := World.answer_committed hans
      rw [hdb, List.getElem?_map, hs₁, Option.map_some, Slot.commit_of_own hl] at hs'
      obtain rfl := Option.some.inj hs'
      obtain ⟨tok₁, heq, hrevoked⟩ := hf.2.2.2 e he
      have hrow : some e.2 = some (.refresh_token tok') := hcur'
      rw [heq] at hrow
      cases hrow
      exact absurd hrevoked hno
  | scan_tokens hph' => rcases hph' with rfl | rfl <;> exact hph.elim
  | _ => exact hph.elim

end Own

section Keeping

variable {c : Crates} {rows : List Record} {gs : List (AccessGhost c)} {w w' : World} {i q : Nat}
  {u : Uuid} {ch : Choice} {call : AccessCall} {log : List ((o : Op) × o.Reply)}
  {ph ph' : AccessPhase} {o : Op} {r : o.Reply} {g' : AccessGhost c}

/-- The rotation had listed the sessions before, or does it now. -/
theorem AccessStep.listed_set (h : AccessStep c call ph o r ph') (hworks : ¬ Fault o r)
    (hph : ph ≠ .failed) (hg : gs[i]? = some ⟨call, log, ph⟩)
    (hq : (gs.set i ⟨call, ⟨o, r⟩ :: log, ph'⟩)[q]? = some g') (hlisted : g'.phase.Listed u) :
    (∃ g, gs[q]? = some g ∧ g.phase.Listed u) ∨ q = i ∧ ∃ hash l, ph = .rotated u hash ∧
      (⟨o, r⟩ : (o : Op) × o.Reply) = ⟨.list_sessions (some u), Except.ok l⟩ ∧
      ph' = .sweeping u hash l := by
  rcases get_set_cases hq with ⟨rfl, rfl⟩ | ⟨-, hq⟩
  · rcases h.listed_cases hworks hph hlisted with hl | hl
    · exact .inl ⟨_, hg, hl⟩
    · exact .inr ⟨rfl, hl⟩
  · exact .inl ⟨_, hq, hlisted⟩

/-- The rotation had listed the tokens before, or does it now. -/
theorem AccessStep.revoking_set (h : AccessStep c call ph o r ph') (hworks : ¬ Fault o r)
    (hph : ph ≠ .failed) (hg : gs[i]? = some ⟨call, log, ph⟩)
    (hq : (gs.set i ⟨call, ⟨o, r⟩ :: log, ph'⟩)[q]? = some g') (hrev : g'.phase.Revoking u) :
    (∃ g, gs[q]? = some g ∧ g.phase.Revoking u) ∨ q = i ∧ ∃ hash is,
      (ph = .sweeping u hash [] ∨ ph = .settled u hash) ∧
      (⟨o, r⟩ : (o : Op) × o.Reply) =
        ⟨.sql (.scan (refresh_tokens.sel (TokenOf u))), Except.ok is⟩ ∧
      ph' = .marking u hash is [] := by
  rcases get_set_cases hq with ⟨rfl, rfl⟩ | ⟨-, hq⟩
  · rcases h.revoking_cases hworks hph hrev with hl | hl
    · exact .inl ⟨_, hg, hl⟩
    · exact .inr ⟨rfl, hl⟩
  · exact .inl ⟨_, hq, hrev⟩

/-- Whoever reads the user's account after the rotation reads a hash of the rotation. -/
theorem Enforced.hashes_step (hE : Enforced w.db gs u q) (hI : AccessKept c rows w.db gs)
    (hg : gs[i]? = some ⟨call, log, ph⟩) (hans : World.answer c i o ch w = some (w', r))
    (hstep : AccessStep c call ph o r ph') (hworks : ¬ Fault o r) (honly : OnlyRotation w'.db u q)
    (hq : (gs.set i ⟨call, ⟨o, r⟩ :: log, ph'⟩)[q]? = some g') {hash : String}
    (hsince : g'.phase.Since u hash) {d : Nat} {y : User} (hy : InPlace w'.db d (.user y))
    (hid : y.id = u) : HasRotated w'.db u q y.password_hash := by
  have hf : AccessFacts c rows w.db i call log ph := hI.journal.facts hg
  have heff := (hstep.part hf.works).effect hans
  obtain ⟨s', hs', hcur⟩ := hy
  rcases heff.current_cases hs' hcur with ⟨s, hs, hold⟩ | ⟨s, hs, hl, hv⟩
  · rcases get_set_cases hq with ⟨rfl, rfl⟩ | ⟨-, hq⟩
    · rcases hstep.since_cases hworks hf.works hsince with hph | ⟨spent, acc, rfl, rfl⟩
      · exact (hE.hashes hg hph ⟨s, hs, hold⟩ hid).effect heff
      · -- the UPDATE has taken all of the user's rows
        obtain ⟨ht, -, -, -, hcovers⟩ := hf
        obtain ⟨y₀, hrow, hid₀⟩ := (hI.journal.slots hs).came (Slot.bears_of_current hold)
        have hmem : d ∈ acc.map Prod.fst := by simpa using hcovers d y₀ hrow (hid₀.trans hid)
        obtain ⟨x, hx, rfl⟩ := List.mem_map.mp hmem
        obtain ⟨s₁, hs₁, hl⟩ := (ht x.1 (some x.2)).mpr
          (List.mem_append_right _ (List.mem_map.mpr ⟨x, hx, rfl⟩))
        rcases World.answer_commit hans with ⟨hdb, -⟩ | ⟨-, hr⟩
        · rw [hdb] at hs' ⊢
          have hslot := hs'
          rw [List.getElem?_map, hs₁, Option.map_some, Slot.commit_of_own hl] at hslot
          obtain rfl := Option.some.inj hslot
          have hrow : some x.2 = some (.user y) := hcur
          exact ⟨x.1, _, y, hs', by rw [← hrow]; exact List.mem_cons_self, hid, rfl⟩
        · subst hr
          exact absurd .commit hworks
    · exact (hE.hashes hq hsince ⟨s, hs, hold⟩ hid).effect heff
  · obtain rfl := honly hs' hv hid
    exact ⟨d, s', y, hs', hv, hid, rfl⟩

/-- Whoever is let in after the listing is let in with a hash of the rotation. -/
theorem Enforced.entering_step (hE : Enforced w.db gs u q) (hI : AccessKept c rows w.db gs)
    (hg : gs[i]? = some ⟨call, log, ph⟩) (hans : World.answer c i o ch w = some (w', r))
    (hstep : AccessStep c call ph o r ph') (hworks : ¬ Fault o r)
    (hclear : o = .list_sessions (some u) → ∀ {k : Nat} {h : AccessGhost c} {y : User},
      gs[k]? = some h → h.phase.Entering y → y.id = u → outdated w.db y = false)
    (hu : HasAccount rows u)
    (hq : (gs.set i ⟨call, ⟨o, r⟩ :: log, ph'⟩)[q]? = some g') (hlisted : g'.phase.Listed u)
    {k : Nat} {h : AccessGhost c} {y : User}
    (hk : (gs.set i ⟨call, ⟨o, r⟩ :: log, ph'⟩)[k]? = some h) (hph : h.phase.Entering y)
    (hid : y.id = u) : HasRotated w'.db u q y.password_hash := by
  have hf : AccessFacts c rows w.db i call log ph := hI.journal.facts hg
  have heff := (hstep.part hf.works).effect hans
  rcases hstep.listed_set hworks hf.works hg hq hlisted with
    ⟨g, hgq, hl⟩ | ⟨rfl, hash, l, rfl, heq, rfl⟩
  · rcases get_set_cases hk with ⟨rfl, rfl⟩ | ⟨-, hk⟩
    · rcases hstep.entering_cases hworks hf.works hph with hph | ⟨p, rows', ys, rfl, heq, hys⟩
      · exact (hE.entering hgq hl hg hph hid).effect heff
      · -- what it has read is the account as it is now
        cases heq
        obtain ⟨hash, hsince⟩ := hl.since
        have hmem : y ∈ rows'.filterMap users.prj := by rw [hys]; exact List.mem_cons_self
        obtain ⟨row, hrow, hprj⟩ := List.mem_filterMap.mp hmem
        obtain rfl := users.inj_of_prj hprj
        rcases (World.answer_select hans).2 with hr | hr
        · obtain rfl := Except.ok.inj hr
          obtain ⟨d, s, hs, hcur, -⟩ := read_current hf hrow
          exact (hE.hashes hgq hsince ⟨s, hs, hcur⟩ hid).effect heff
        · cases hr
    · exact (hE.entering hgq hl hk hph hid).effect heff
  · cases heq
    rcases get_set_cases hk with ⟨rfl, rfl⟩ | ⟨-, hk⟩
    · exact hph.elim
    · have hfresh := hclear rfl hk hph hid
      obtain ⟨d, z, ⟨s, hs, hcur⟩, hzid⟩ := hI.account hu
      have hsame : z.password_hash = y.password_hash := by
        by_contra hne
        have hold : outdated w.db y = true := by
          refine List.any_eq_true.mpr ⟨s, List.mem_of_getElem? hs, ?_⟩
          rw [hcur, Option.bind_some]
          exact Bool.and_eq_true_iff.mpr ⟨beq_iff_eq.mpr (hzid.trans hid.symm), bne_iff_ne.mpr hne⟩
        rw [hold] at hfresh
        cases hfresh
      rw [← hsame]
      exact (hE.hashes hg ⟨rfl, rfl⟩ ⟨s, hs, hcur⟩ hzid).effect heff

/-- A session about to come after the listing is the rotation's own, or a login's that has been let
in with a hash of the rotation. -/
theorem Enforced.coming (hE : Enforced w.db gs u q) (hI : AccessKept c rows w.db gs)
    (hg : gs[i]? = some ⟨call, log, ph⟩) (honly : OnlyRotation w.db u q) (hu : HasAccount rows u)
    {g : AccessGhost c} (hgq : gs[q]? = some g) (hl : g.phase.Listed u) {d : Nat} {x : Session}
    (hheld : HeldIn w.db d ph (some (.session x))) (hsub : x.sub = u) :
    i = q ∧ call.changes = true ∨
      ∃ y ∈ logged_into c call log, y.id = u ∧ HasRotated w.db u q y.password_hash := by
  have hf : AccessFacts c rows w.db i call log ph := hI.journal.facts hg
  generalize hv : some (Record.session x) = v at hheld
  cases hheld with
  | @login y z hz =>
      cases hv
      have hid : y.id = u := hz.symm.trans hsub
      exact .inr ⟨y, hf.2, hid, hE.entering hgq hl hg rfl hid⟩
  | @renewal v hash z hz =>
      cases hv
      obtain rfl : v = u := hz.symm.trans hsub
      exact .inl ⟨hI.only honly hu hg ⟨rfl, rfl⟩, hf.2.2⟩
  | reset hr =>
      obtain ⟨p, rfl⟩ := hr
      cases hv
  | account hr =>
      obtain ⟨y, rfl, -⟩ := hr
      cases hv
  | revoked hr =>
      obtain ⟨tok, rfl, -⟩ := hr
      cases hv
  | token | deleted => cases hv

/-- A session of the user is still to be deleted, or was obtained with the new password. -/
theorem Enforced.listed_step (hE : Enforced w.db gs u q) (hI : AccessKept c rows w.db gs)
    (hg : gs[i]? = some ⟨call, log, ph⟩) (hans : World.answer c i o ch w = some (w', r))
    (hstep : AccessStep c call ph o r ph') (hworks : ¬ Fault o r) (honly : OnlyRotation w'.db u q)
    (hall : ∀ l, o = .list_sessions (some u) → ch = .sessions l →
      ∀ x ∈ w.rows sessions, x.sub = u → ∃ z ∈ l, z.id = x.id)
    (hu : HasAccount rows u) (hq : (gs.set i ⟨call, ⟨o, r⟩ :: log, ph'⟩)[q]? = some g')
    (hlisted : g'.phase.Listed u) {d : Nat} {x : Session} (hx : InPlace w'.db d (.session x))
    (hsub : x.sub = u) : g'.phase.Unswept d x ∨ ∃ (k : Nat) (h : AccessGhost c),
      (gs.set i ⟨call, ⟨o, r⟩ :: log, ph'⟩)[k]? = some h ∧ HasCreated w'.db k d x ∧
      (k = q ∧ h.call.changes = true ∨ ∃ y ∈ logged_into c h.call h.log, y.id = u ∧
        HasRotated w'.db u q y.password_hash) := by
  have hf : AccessFacts c rows w.db i call log ph := hI.journal.facts hg
  have heff := (hstep.part hf.works).effect hans
  have hlt : i < gs.length := (List.getElem?_eq_some_iff.mp hg).1
  have hlog : ∀ e ∈ log, e ∈ (⟨o, r⟩ : (o : Op) × o.Reply) :: log := fun e he =>
    List.mem_cons_of_mem _ he
  obtain ⟨s', hs', hcur⟩ := hx
  rcases hstep.listed_set hworks hf.works hg hq hlisted with
    ⟨g, hgq, hl⟩ | ⟨rfl, hash, l, rfl, heq, rfl⟩
  · rcases heff.current_cases hs' hcur with ⟨s, hs, hold⟩ | ⟨s, hs, hlock, hv⟩
    · rcases hE.listed hgq hl ⟨s, hs, hold⟩ hsub with hun | ⟨k, h, hk, hcreated, hby⟩
      · left
        rcases get_set_cases hq with ⟨rfl, rfl⟩ | ⟨-, hq⟩
        · obtain rfl := Option.some.inj (hg.symm.trans hgq)
          exact hstep.unswept hworks hf hans ⟨s, hs, hold⟩ ⟨s', hs', hcur⟩ hun
        · obtain rfl := Option.some.inj (hq.symm.trans hgq)
          exact hun
      · right
        have hby' : ∀ {log' : List ((o : Op) × o.Reply)}, (∀ e ∈ h.log, e ∈ log') →
            (k = q ∧ h.call.changes = true ∨ ∃ y ∈ logged_into c h.call log', y.id = u ∧
              HasRotated w'.db u q y.password_hash) := by
          intro log' hsub'
          rcases hby with hby | ⟨y, hy, hid, hrot⟩
          · exact .inl hby
          · exact .inr ⟨y, logged_into_mono hsub' hy, hid, hrot.effect heff⟩
        by_cases hki : i = k
        · subst hki
          obtain rfl := Option.some.inj (hg.symm.trans hk)
          exact ⟨i, _, List.getElem?_set_self hlt, hcreated.effect heff, hby' hlog⟩
        · exact ⟨k, h, by rw [List.getElem?_set_ne hki, hk], hcreated.effect heff,
            hby' fun e he => he⟩
    · right
      refine ⟨i, _, List.getElem?_set_self hlt, ⟨s', hs', hv⟩, ?_⟩
      rcases hE.coming hI hg (honly.before heff) hu hgq hl (hf.held hs hlock) hsub with
        hown | ⟨y, hy, hid, hrot⟩
      · exact .inl hown
      · exact .inr ⟨y, logged_into_mono hlog hy, hid, hrot.effect heff⟩
  · cases heq
    obtain ⟨rfl, ⟨_, hch, -, hr⟩ | ⟨e, -, hr⟩⟩ := World.answer_list_sessions hans
    · obtain rfl := Except.ok.inj hr
      obtain rfl : g' = ⟨call, _, .sweeping u hash _⟩ :=
        (Option.some.inj ((List.getElem?_set_self hlt).symm.trans hq)).symm
      have hmem : x ∈ w'.rows sessions := List.mem_filterMap.mpr
        ⟨_, List.mem_filterMap.mpr ⟨s', List.mem_of_getElem? hs', hcur⟩, sessions.prj_inj x⟩
      exact .inl (hall l rfl hch x hmem hsub)
    · cases hr

/-- Once a rotation revokes the tokens, a session of the user stays. -/
theorem AccessKept.session_stays (hI : AccessKept c rows w.db gs)
    (hg : gs[i]? = some ⟨call, log, ph⟩) (hans : World.answer c i o ch w = some (w', r))
    (hstep : AccessStep c call ph o r ph') (honly : OnlyRotation w.db u q) (hu : HasAccount rows u)
    {g : AccessGhost c} (hgq : gs[q]? = some g) (hrev : g.phase.Revoking u) {cookie : String}
    (h : has_session c w.db cookie u = true) : has_session c w'.db cookie u = true := by
  have hf : AccessFacts c rows w.db i call log ph := hI.journal.facts hg
  obtain ⟨d, x, ⟨s, hs, hcur⟩, hid, hsub⟩ := has_session_iff.mp h
  refine has_session_iff.mpr ⟨d, x, ?_, hid, hsub⟩
  have hslot := hI.journal.slots hs
  obtain ⟨s', hs', hc | ⟨v, hl, hc⟩⟩ :=
    ((hstep.part hf.works).effect hans).current_stays hs hcur
  · exact ⟨s', hs', hc⟩
  · cases v with
    | some row =>
        -- a row that is a session stays that session
        have hsame := hslot.same (Slot.bears_of_current hcur) (.inr ⟨i, hl⟩)
        rw [session_of_constants hsame] at hc
        exact ⟨s', hs', hc⟩
    | none =>
        cases hf.held hs hl with
        | @deleted v hash z todo is acc hfile hz =>
            obtain ⟨s₁, y, hs₁, hy, hrow⟩ := hfile
            obtain rfl := Option.some.inj (hs.symm.trans hs₁)
            have hsame := hslot.same (.inl ⟨y, hy, hrow⟩) (Slot.bears_of_current hcur)
            obtain rfl := Record.session.inj (session_of_constants hsame)
            obtain rfl : v = u := hz.symm.trans hsub
            -- only the rotation deletes them, and it is past that
            obtain rfl := hI.only honly hu hg ⟨rfl, rfl⟩
            obtain rfl := Option.some.inj (hg.symm.trans hgq)
            exact hrev.elim

/-- Whoever is let in for a token after the revocation has started has a session that stays. -/
theorem Enforced.accepting_step (hE : Enforced w.db gs u q) (hI : AccessKept c rows w.db gs)
    (hg : gs[i]? = some ⟨call, log, ph⟩) (hans : World.answer c i o ch w = some (w', r))
    (hstep : AccessStep c call ph o r ph') (hworks : ¬ Fault o r) (honly : OnlyRotation w'.db u q)
    (hclear : ∀ p, o = .sql (.scan p) → ∀ {k : Nat} {h : AccessGhost c} {id : Identity}
      {cookie : String}, gs[k]? = some h → h.call = .jwt cookie → h.phase.Accepting id →
      p (token_for id.sub) = true → has_session c w.db cookie id.sub = true)
    (hlet : ∀ cookie id, call = .jwt cookie → ch = .identity id →
      has_session c w.db cookie id.sub = true)
    (hu : HasAccount rows u) (hq : (gs.set i ⟨call, ⟨o, r⟩ :: log, ph'⟩)[q]? = some g')
    (hrev : g'.phase.Revoking u) {k : Nat} {h : AccessGhost c} {id : Identity} {cookie : String}
    (hk : (gs.set i ⟨call, ⟨o, r⟩ :: log, ph'⟩)[k]? = some h) (hcall : h.call = .jwt cookie)
    (hph : h.phase.Accepting id) (hid : id.sub = u) : has_session c w'.db cookie u = true := by
  have hf : AccessFacts c rows w.db i call log ph := hI.journal.facts hg
  have hbefore : OnlyRotation w.db u q := honly.before ((hstep.part hf.works).effect hans)
  rcases hstep.revoking_set hworks hf.works hg hq hrev with
    ⟨g, hgq, hl⟩ | ⟨rfl, hash, is, -, heq, rfl⟩
  · have hstays : has_session c w.db cookie u = true → has_session c w'.db cookie u = true :=
      hI.session_stays hg hans hstep hbefore hu hgq hl
    rcases get_set_cases hk with ⟨rfl, rfl⟩ | ⟨-, hk⟩
    · rcases hstep.accepting_cases hworks hf.works hph with hph | ⟨cookie', hcall', heq⟩
      · exact hstays (hE.accepting hgq hl hg hcall hph hid)
      · -- the session middleware has just let it in
        obtain rfl : cookie' = cookie := by
          have hcookie := hcall'.symm.trans hcall
          cases hcookie
          rfl
        cases heq
        obtain ⟨rfl, ⟨_, hch, hr⟩ | ⟨-, hr⟩⟩ := World.answer_authenticate hans
        · cases hr
          rw [← hid]
          exact hlet _ _ hcall' hch
        · cases hr
    · exact hstays (hE.accepting hgq hl hk hcall hph hid)
  · cases heq
    obtain ⟨rfl, -⟩ := World.answer_scan hans
    rcases get_set_cases hk with ⟨rfl, rfl⟩ | ⟨-, hk⟩
    · exact hph.elim
    · rw [← hid]
      exact hclear _ rfl hk hcall hph (refresh_tokens.sel_iff.mpr ⟨_, rfl, beq_iff_eq.mpr hid⟩)

/-- A token of the user is still to be revoked, or was issued to a session that stays. -/
theorem Enforced.tokens_step (hE : Enforced w.db gs u q) (hI : AccessKept c rows w.db gs)
    (hg : gs[i]? = some ⟨call, log, ph⟩) (hans : World.answer c i o ch w = some (w', r))
    (hstep : AccessStep c call ph o r ph') (hworks : ¬ Fault o r) (honly : OnlyRotation w'.db u q)
    (hu : HasAccount rows u) (hq : (gs.set i ⟨call, ⟨o, r⟩ :: log, ph'⟩)[q]? = some g')
    (hrev : g'.phase.Revoking u) {d : Nat} (hlive : Live w'.db u d) : g'.phase.Unmarked d ∨
      ∃ (k : Nat) (h : AccessGhost c) (cookie : String),
        (gs.set i ⟨call, ⟨o, r⟩ :: log, ph'⟩)[k]? = some h ∧ HasIssued w'.db k d ∧
        h.call = .jwt cookie ∧ has_session c w'.db cookie u = true := by
  have hf : AccessFacts c rows w.db i call log ph := hI.journal.facts hg
  have heff := (hstep.part hf.works).effect hans
  have hlt : i < gs.length := (List.getElem?_eq_some_iff.mp hg).1
  have hlive' := hlive
  obtain ⟨s', tok, hs', hcur, hsub, hno⟩ := hlive
  rcases hstep.revoking_set hworks hf.works hg hq hrev with
    ⟨g, hgq, hl⟩ | ⟨rfl, hash, is, hph, heq, rfl⟩
  · have hstays : ∀ {cookie : String}, has_session c w.db cookie u = true →
        has_session c w'.db cookie u = true :=
      hI.session_stays hg hans hstep (honly.before heff) hu hgq hl
    rcases heff.current_cases hs' hcur with ⟨s, hs, hold⟩ | ⟨s, hs, hlock, hv⟩
    · have hlive : Live w.db u d := ⟨s, tok, hs, hold, hsub, hno⟩
      rcases hE.tokens hgq hl hlive with hun | ⟨k, h, cookie, hk, hissued, hcall, hsession⟩
      · left
        rcases get_set_cases hq with ⟨rfl, rfl⟩ | ⟨-, hq⟩
        · obtain rfl := Option.some.inj (hg.symm.trans hgq)
          exact hstep.unmarked hworks hf hans hlive hlive' hl hun
        · obtain rfl := Option.some.inj (hq.symm.trans hgq)
          exact hun
      · right
        by_cases hki : i = k
        · subst hki
          obtain rfl := Option.some.inj (hg.symm.trans hk)
          exact ⟨i, _, cookie, List.getElem?_set_self hlt, hissued.effect heff, hcall,
            hstays hsession⟩
        · exact ⟨k, h, cookie, by rw [List.getElem?_set_ne hki, hk], hissued.effect heff, hcall,
            hstays hsession⟩
    · right
      have hheld := hf.held hs hlock
      generalize hrow : some (Record.refresh_token tok) = v at hheld
      cases hheld with
      | @token id tok' htok =>
          cases hrow
          obtain ⟨⟨cookie, hcall⟩, -⟩ := hf.2
          have hid : id.sub = u := htok.symm.trans hsub
          exact ⟨i, _, cookie, List.getElem?_set_self hlt, ⟨s', tok, hs', hv⟩, hcall,
            hstays (hE.accepting hgq hl hg hcall rfl hid)⟩
      | revoked hr =>
          obtain ⟨tok', rfl, hrevoked⟩ := hr
          cases hrow
          exact absurd hrevoked hno
      | reset hr =>
          obtain ⟨p, rfl⟩ := hr
          cases hrow
      | account hr =>
          obtain ⟨y, rfl, -⟩ := hr
          cases hrow
      | login | renewal | deleted => cases hrow
  · -- the UPDATE finds all there are
    cases heq
    obtain ⟨rfl, rfl⟩ := World.answer_scanned hans
    obtain rfl : g' = ⟨call, _, .marking u hash _ []⟩ :=
      (Option.some.inj ((List.getElem?_set_self hlt).symm.trans hq)).symm
    have ht : w'.db.Holds q [] := by rcases hph with rfl | rfl <;> exact hf.1
    refine .inl (mem_matching.mpr ⟨s', hs', ht.hits hs' (by simp) hcur ?_⟩)
    exact refresh_tokens.sel_iff.mpr ⟨tok, rfl, beq_iff_eq.mpr hsub⟩

end Keeping

/-! ### Runs -/

/-- **The books of rotations**: what the calls have in hand, what they have committed, and what
every rotation that is the only one of its user has enforced. -/
structure RotationsKept (c : Crates) (rows : List Record) (t : Table Record)
    (gs : List (AccessGhost c)) : Prop where
  kept : AccessKept c rows t gs
  credited : Credited t gs
  enforced : ∀ {u : Uuid} {q : Nat}, HasAccount rows u → OnlyRotation t u q → Enforced t gs u q

/-- A new call has done nothing yet. -/
theorem Credited.spawn {c : Crates} {t : Table Record} {gs : List (AccessGhost c)}
    (hC : Credited t gs) (call : AccessCall) : Credited t (gs ++ [⟨call, [], .start⟩]) := by
  have hold : ∀ {k : Nat} {g : AccessGhost c}, gs[k]? = some g →
      (gs ++ [⟨call, [], .start⟩])[k]? = some g := fun hk => by
    rw [List.getElem?_append_left (List.getElem?_eq_some_iff.mp hk).1, hk]
  refine ⟨fun hs hy => ?_, fun hx => ?_, hC.once⟩
  · obtain ⟨g, hg, hsince⟩ := hC.rotated hs hy
    exact ⟨g, hold hg, hsince⟩
  · obtain ⟨g, hg, hph⟩ := hC.created hx
    exact ⟨g, hold hg, hph⟩

theorem Enforced.spawn {c : Crates} {t : Table Record} {gs : List (AccessGhost c)} {u : Uuid}
    {q : Nat} (hE : Enforced t gs u q) (call : AccessCall) :
    Enforced t (gs ++ [⟨call, [], .start⟩]) u q := by
  have hold : ∀ {k : Nat} {g : AccessGhost c}, gs[k]? = some g →
      (gs ++ [⟨call, [], .start⟩])[k]? = some g := fun hk => by
    rw [List.getElem?_append_left (List.getElem?_eq_some_iff.mp hk).1, hk]
  refine ⟨fun hg hsince _ _ hy hid => ?_, fun hg hl _ _ _ hk hph hid => ?_,
    fun hg hl _ _ hx hsub => ?_, fun hg hl _ _ _ _ hk hcall hph hsub => ?_,
    fun hg hl _ hlive => ?_⟩
  · rcases get_snoc_cases hg with ⟨-, rfl⟩ | hg
    · exact hsince.elim
    · exact hE.hashes hg hsince hy hid
  · rcases get_snoc_cases hg with ⟨-, rfl⟩ | hg
    · exact hl.elim
    rcases get_snoc_cases hk with ⟨-, rfl⟩ | hk
    · exact hph.elim
    · exact hE.entering hg hl hk hph hid
  · rcases get_snoc_cases hg with ⟨-, rfl⟩ | hg
    · exact hl.elim
    · rcases hE.listed hg hl hx hsub with hun | ⟨k, h, hk, hby⟩
      · exact .inl hun
      · exact .inr ⟨k, h, hold hk, hby⟩
  · rcases get_snoc_cases hg with ⟨-, rfl⟩ | hg
    · exact hl.elim
    rcases get_snoc_cases hk with ⟨-, rfl⟩ | hk
    · exact hph.elim
    · exact hE.accepting hg hl hk hcall hph hsub
  · rcases get_snoc_cases hg with ⟨-, rfl⟩ | hg
    · exact hl.elim
    · rcases hE.tokens hg hl hlive with hun | ⟨k, h, cookie, hk, hby⟩
      · exact .inl hun
      · exact .inr ⟨k, h, cookie, hold hk, hby⟩

theorem RotationsKept.spawn {c : Crates} {rows : List Record} {t : Table Record}
    {gs : List (AccessGhost c)} (hR : RotationsKept c rows t gs) (call : AccessCall) :
    RotationsKept c rows t (gs ++ [⟨call, [], .start⟩]) :=
  ⟨hR.kept.spawn call, hR.credited.spawn call, fun hu honly => (hR.enforced hu honly).spawn call⟩

/-- Before any call. -/
theorem rotations_start {c : Crates} {rows : List Record} (hrows : DistinctSessions rows) :
    RotationsKept c rows (rows.map Slot.loaded) [] := by
  have hloaded : ∀ {d k : Nat} {s : Slot Record} {v : Option Record},
      (rows.map Slot.loaded)[d]? = some s → ⟨some k, v⟩ ∉ s.versions := by
    intro d k s v hs hv
    rw [List.getElem?_map] at hs
    obtain ⟨row, -, rfl⟩ := Option.map_eq_some_iff.mp hs
    cases List.mem_singleton.mp hv
  refine ⟨access_start hrows, ⟨fun hs hy => absurd hy (hloaded hs), fun hx => ?_,
    fun hx => ?_⟩, fun _ _ => ⟨fun hg => ?_, fun hg => ?_, fun hg => ?_, fun hg => ?_,
    fun hg => ?_⟩⟩
  · obtain ⟨s, hs, hx⟩ := hx
    exact absurd hx (hloaded hs)
  · obtain ⟨s, hs, hx⟩ := hx
    exact absurd hx (hloaded hs)
  all_goals cases hg

section Runs

variable {jwt_svc : JwtService} {rows : List Record} {cfg : AccessConfig} {w' : World}
  {gs gs' : List (AccessGhost jwt_svc.crates)} {i : Nat} {ch : Choice}
  {ev : Basis.Event Choice AccessCall Expiry}

theorem not_fault_of_works (h : database_works cfg (.step i ch) = true) {o : Op} {r : o.Reply}
    {w : World} (hnext : cfg.next i = some o)
    (hans : World.answer jwt_svc.crates i o ch w = some (w', r)) : ¬ Fault o r := by
  intro hfault
  have hgoes : ∀ {o : SqlOp Record} {r : o.Reply}, cfg.next i = some (.sql o) →
      World.answer jwt_svc.crates i (.sql o) ch w = some (w', r) →
      ∃ key t, SqlOp.answer i o (.done key) w.db = some (t, r) := by
    intro o r hnext hans
    obtain ⟨out, hout, hsql, -⟩ := World.answer_sql hans
    simp only [database_works, hnext] at h
    cases ch with
    | go =>
        cases hout
        exact ⟨_, _, hsql⟩
    | key n =>
        cases hout
        exact ⟨_, _, hsql⟩
    | fail => cases h
    | _ => cases hout
  cases hfault with
  | begin | select | scan | commit =>
      obtain ⟨key, t, hsql⟩ := hgoes hnext hans
      cases hsql
  | visit =>
      obtain ⟨key, t, hsql⟩ := hgoes hnext hans
      simp only [SqlOp.answer] at hsql
      split at hsql
      · obtain ⟨-, hsql⟩ := Option.ite_none_right_eq_some.mp hsql
        cases hsql
      · cases hsql
  | list =>
      obtain ⟨-, ⟨l, -, -, hr⟩ | ⟨e, rfl, -⟩⟩ := World.answer_list_sessions hans
      · cases hr
      · simp only [database_works, hnext] at h
        cases h

theorem new_of_new_session_id (h : new_session_id cfg (.step i ch) = true) {new : NewSession}
    {n : Nat} (hnext : cfg.next i = some (put_session new))
    (hout : World.outcome ch = some (.done n)) : NewId cfg.shared.db n := by
  intro d s row hs hrow hkey
  simp only [new_session_id, hnext, put_session, hout] at h
  rcases Bool.or_eq_true_iff.mp h with h | h
  · cases h
  · have hall := List.all_eq_true.mp (List.all_eq_true.mp h s (List.mem_of_getElem? hs)) _
      (Slot.mem_values_of_bears hrow)
    exact bne_iff_ne.mp hall hkey

/-- A call that has been let in and has nothing to show for it yet is in progress. -/
theorem in_progress (htr : Protocol.Tracked (granting jwt_svc.crates) cfg gs) {k : Nat}
    {h : AccessGhost jwt_svc.crates} (hk : gs[k]? = some h) (hph : ¬ h.phase.MayEnd) :
    ∃ th ∈ cfg.threads, th.call = h.call ∧ th.log = h.log ∧ th.prog.next.isNone = false := by
  obtain ⟨th, hth, hcall, hlog, hwalk⟩ := htr.thread hk
  refine ⟨th, List.mem_of_getElem? hth, hcall.symm, hlog.symm, ?_⟩
  cases hp : th.prog with
  | ret a =>
      rw [hp] at hwalk
      exact absurd hwalk.1 hph
  | ask o k => rfl

/-- What a whole listing names. -/
theorem listed_of_lists_all {l : List Session} (h : lists_all cfg (.step i (.sessions l)) = true)
    {u : Uuid} (hnext : cfg.next i = some (.list_sessions (some u))) :
    (∀ x ∈ cfg.shared.rows sessions, x.sub = u → ∃ z ∈ l, z.id = x.id) ∧
      ∀ z ∈ l, ∃ d, FiledAt cfg.shared.db d (.session z) := by
  simp only [lists_all, hnext] at h
  obtain ⟨hall, honly⟩ := Bool.and_eq_true_iff.mp h
  refine ⟨fun x hx hsub => ?_, fun z hz => ?_⟩
  · rcases Bool.or_eq_true_iff.mp (List.all_eq_true.mp hall x hx) with hne | hany
    · exact absurd hsub (bne_iff_ne.mp hne)
    · obtain ⟨z, hz, hid⟩ := List.any_eq_true.mp hany
      exact ⟨z, hz, beq_iff_eq.mp hid⟩
  · obtain ⟨s, hs, hany⟩ := List.any_eq_true.mp (List.all_eq_true.mp honly z hz)
    obtain ⟨x, hx, hrow⟩ := List.any_eq_true.mp hany
    obtain ⟨d, hd⟩ := List.mem_iff_getElem?.mp hs
    exact ⟨d, s, x, hd, hx, beq_iff_eq.mp hrow⟩

theorem login_of_clear (htr : Protocol.Tracked (granting jwt_svc.crates) cfg gs)
    (hI : AccessKept jwt_svc.crates rows cfg.shared.db gs)
    (hclear : no_login_half_way jwt_svc.crates cfg (.step i ch) = true) {u : Uuid}
    (hnext : cfg.next i = some (.list_sessions (some u))) {k : Nat}
    {h : AccessGhost jwt_svc.crates} {y : User} (hk : gs[k]? = some h) (hph : h.phase.Entering y)
    (hid : y.id = u) : outdated cfg.shared.db y = false := by
  have hend : ¬ h.phase.MayEnd := by
    intro hend
    revert hph hend
    cases h.phase <;> exact fun hph hend => by first | exact hend.elim | exact hph.elim
  obtain ⟨th, hth, hcall, hlog, hprog⟩ := in_progress htr hk hend
  simp only [no_login_half_way, hnext] at hclear
  have hall := List.all_eq_true.mp hclear th hth
  rw [hprog, Bool.false_or, hcall, hlog] at hall
  have hy := List.all_eq_true.mp hall y ((hI.journal.facts hk).entering hph)
  simpa [hid] using hy

theorem token_of_clear (htr : Protocol.Tracked (granting jwt_svc.crates) cfg gs)
    (hI : AccessKept jwt_svc.crates rows cfg.shared.db gs)
    (hclear : no_token_half_way jwt_svc.crates cfg (.step i ch) = true) {p : Record → Bool}
    (hnext : cfg.next i = some (.sql (.scan p))) {k : Nat} {h : AccessGhost jwt_svc.crates}
    {id : Identity} {cookie : String} (hk : gs[k]? = some h) (hcall : h.call = .jwt cookie)
    (hph : h.phase.Accepting id) (hp : p (token_for id.sub) = true) :
    has_session jwt_svc.crates cfg.shared.db cookie id.sub = true := by
  have hend : ¬ h.phase.MayEnd := by
    intro hend
    revert hph hend
    cases h.phase <;> exact fun hph hend => by first | exact hend.elim | exact hph.elim
  obtain ⟨th, hth, hthcall, hlog, hprog⟩ := in_progress htr hk hend
  simp only [no_token_half_way, hnext] at hclear
  have hall := List.all_eq_true.mp hclear th hth
  simp only [hthcall, hcall, hprog, Bool.false_or, hlog] at hall
  have hid := List.all_eq_true.mp hall id ((hI.journal.facts hk).accepting hph).2
  simpa [hp] using hid

theorem session_of_let_in {id : Identity} {cookie : String}
    (h : lets_in_sessions jwt_svc.crates cfg (.step i (.identity id)) = true)
    (hcall : cfg.call i = some (.jwt cookie)) :
    has_session jwt_svc.crates cfg.shared.db cookie id.sub = true := by
  simpa only [lets_in_sessions, hcall] using h

/-- **Where logins and token requests keep clear of rotations, every event keeps the books.** -/
theorem RotationsKept.move (hR : RotationsKept jwt_svc.crates rows cfg.shared.db gs)
    (htr : Protocol.Tracked (granting jwt_svc.crates) cfg gs)
    (hrelied : relied_on jwt_svc.crates cfg ev = true)
    (hclear : clear_of_rotations jwt_svc.crates cfg ev = true)
    (hmv : Protocol.Move (accessing jwt_svc) (granting jwt_svc.crates) cfg gs ev w' gs') :
    RotationsKept jwt_svc.crates rows w'.db gs' := by
  cases hmv with
  | spawn call => exact hR.spawn call
  | env e =>
      change RotationsKept _ _ (cfg.shared.expire e).db _
      rw [World.expire_db]
      exact hR
  | @step i ch g o w' r ph' hg hcall hnext hans hstep =>
      obtain ⟨call, log, ph⟩ := g
      have hans : World.answer jwt_svc.crates i o ch cfg.shared = some (w', r) := hans
      obtain ⟨hlogin, htoken⟩ := Bool.and_eq_true_iff.mp hclear
      obtain ⟨hfirst, hlet⟩ := Bool.and_eq_true_iff.mp hrelied
      obtain ⟨hfirst, hlists⟩ := Bool.and_eq_true_iff.mp hfirst
      obtain ⟨hworks, hid⟩ := Bool.and_eq_true_iff.mp hfirst
      have hgoes : ¬ Fault o r := not_fault_of_works hworks hnext hans
      have hI := hR.kept
      have hcallof : cfg.call i = some call := htr.call hg
      refine ⟨hI.step hg hans hstep hgoes
        (fun new n ho hout => new_of_new_session_id hid (ho ▸ hnext) hout)
        fun u l ho hch => (listed_of_lists_all (hch ▸ hlists) (ho ▸ hnext)).2,
        hR.credited.step hI hg hans hstep hgoes, fun hu honly => ?_⟩
      have heff := (hstep.part (hI.journal.facts hg).works).effect hans
      have hE := hR.enforced hu (honly.before heff)
      exact ⟨fun hq hsince _ _ hy hyid =>
          hE.hashes_step hI hg hans hstep hgoes honly hq hsince hy hyid,
        fun hq hl _ _ _ hk hph hyid => hE.entering_step hI hg hans hstep hgoes
          (fun ho _ _ _ hk hph hid => login_of_clear htr hI hlogin (ho ▸ hnext) hk hph hid)
          hu hq hl hk hph hyid,
        fun hq hl _ _ hx hsub => hE.listed_step hI hg hans hstep hgoes honly
          (fun l ho hch => (listed_of_lists_all (hch ▸ hlists) (ho ▸ hnext)).1)
          hu hq hl hx hsub,
        fun hq hl _ _ _ _ hk hjwt hph hsub => hE.accepting_step hI hg hans hstep hgoes honly
          (fun p ho _ _ _ _ hk hjwt hph hp =>
            token_of_clear htr hI htoken (ho ▸ hnext) hk hjwt hph hp)
          (fun cookie id hjwt hch => session_of_let_in (hch ▸ hlet) (hjwt ▸ hcallof))
          hu hq hl hk hjwt hph hsub,
        fun hq hl _ hlive => hE.tokens_step hI hg hans hstep hgoes honly hu hq hl hlive⟩

/-- What the books say once the rotation has returned. -/
theorem RotationsKept.rotated (hR : RotationsKept jwt_svc.crates rows cfg.shared.db gs)
    (htr : Protocol.Tracked (granting jwt_svc.crates) cfg gs) {u : Uuid} {q : Nat} {hash : String}
    {resp : HttpResponse} (honly : OnlyRotation cfg.shared.db u q)
    (hrot : HasRotated cfg.shared.db u q hash) (hres : cfg.result q = some resp)
    (hok : resp.status = 200) : CredentialsRotated jwt_svc.crates cfg u q hash := by
  obtain ⟨d, s, y, hs, hy, rfl, rfl⟩ := hrot
  -- the account has been there from the start, and the rotation is done
  have hu : HasAccount rows y.id := by
    obtain ⟨y₀, hrow, hid⟩ := (hR.kept.journal.slots hs).came (.inl ⟨_, hy, rfl⟩)
    exact ⟨d, y₀, hrow, hid⟩
  have hE := hR.enforced hu honly
  obtain ⟨g, hg, hsince⟩ := hR.credited.rotated hs hy
  obtain ⟨g', hg', -, hend⟩ := htr.final hres
  obtain rfl := Option.some.inj (hg.symm.trans hg')
  have hdone := hend hok _ _ hsince
  have hhash : ∀ {hash : String}, HasRotated cfg.shared.db y.id q hash →
      hash = y.password_hash := by
    rintro hash ⟨e, s', z, hs', hz, hid, rfl⟩
    obtain ⟨g', hg', hsince'⟩ := hR.credited.rotated hs' hz
    obtain rfl := Option.some.inj (hg.symm.trans hg')
    rw [hid] at hsince'
    exact hsince'.hash_eq hsince
  refine ⟨fun hx hsub => ?_, hR.credited.once, fun hlive => ?_⟩
  · rcases hE.listed hg (by rw [hdone]; rfl) hx hsub with hun | ⟨k, h, hk, hcreated, hby⟩
    · rw [hdone] at hun
      exact hun.elim
    · refine ⟨k, h.call, hcreated, htr.call hk, ?_⟩
      rcases hby with hby | ⟨z, hz, hid, hrot⟩
      · exact .inl hby
      · exact .inr ⟨z, by rwa [htr.log hk], hid, hhash hrot⟩
  · rcases hE.tokens hg (by rw [hdone]; rfl) hlive with hun | ⟨k, h, cookie, hk, hissued, hcall, hby⟩
    · rw [hdone] at hun
      exact hun.elim
    · exact ⟨k, cookie, hissued, by rw [htr.call hk, hcall], hby⟩

end Runs

/-- **No credential obtained under the old password outlives a rotation** in a run in which logins
and token requests keep clear of rotations. -/
theorem credentials_end_with_the_password (jwt_svc : JwtService) (rows : List Record) (w : World)
    (evs : List (Basis.Event Choice AccessCall Expiry)) (cfg : AccessConfig) (u : Uuid) (q : Nat)
    (hash : String) (resp : HttpResponse) (hrows : DistinctSessions rows)
    (hdb : w.db = rows.map Slot.loaded)
    (hclear : (accessing jwt_svc).Along (fun cfg ev => relied_on jwt_svc.crates cfg ev = true ∧
      clear_of_rotations jwt_svc.crates cfg ev = true) ⟨w, []⟩ evs)
    (hrun : (accessing jwt_svc).run ⟨w, []⟩ evs = some cfg)
    (honly : OnlyRotation cfg.shared.db u q) (hrot : HasRotated cfg.shared.db u q hash)
    (hres : cfg.result q = some resp) (hok : resp.status = 200) :
    CredentialsRotated jwt_svc.crates cfg u q hash := by
  obtain ⟨gs, htr, hR⟩ := Protocol.run_tracks (granting_follows jwt_svc)
    (fun w gs => RotationsKept jwt_svc.crates rows w.db gs)
    (fun cfg gs ev w' gs' htr hR hC hmv => hR.move htr hC.1 hC.2 hmv)
    ⟨[], Protocol.tracked_nil _ _, hdb ▸ rotations_start hrows⟩ hclear hrun
  exact hR.rotated htr honly hrot hres hok

/-- Alice, signed in, with a refresh token. -/
def alice_signed_in : List Record :=
  [.user (sample_user "old password"), .session sample_session,
    .refresh_token (sample_token (token_of 1))]

theorem alice_signed_in_once : DistinctSessions alice_signed_in := by
  intro d e row row' id hd he hid hid'
  rcases d with _ | _ | _ | d <;> rcases e with _ | _ | _ | e <;> cases hd <;> cases he
  all_goals first | rfl | (cases hid <;> cases hid')

/-- The steps of one call, in a row. -/
def stepping (i : Nat) (choices : List Choice) : List (Basis.Event Choice AccessCall Expiry) :=
  choices.map (.step i)

/-- A password change up to the commit of the new hash. -/
def start_of_change (i : Nat) : List (Basis.Event Choice AccessCall Expiry) :=
  stepping i [.identity as_alice, .go, .number 1, .go, .go, .go]

/-- The rest of it, with one session to delete and `n` tokens to revoke. -/
def rest_of_change (i n : Nat) : List (Basis.Event Choice AccessCall Expiry) :=
  stepping i ([.sessions [sample_session], .go, .go, .go, .go, .time 60, .time 60, .key 3, .go,
    .go] ++ List.replicate n .go ++ [.go])

def change_by_alice : AccessCall :=
  .change_password (uuid_text 1) ⟨"old password", "violet ladder engine cactus"⟩ alices_browser

/-- Alice changes her password, logs in on the side with the new one, and asks for tokens. -/
def changed_in_between : List (Basis.Event Choice AccessCall Expiry) :=
  .spawn change_by_alice :: start_of_change 0 ++
    .spawn (.login ⟨"alice@example.com", "violet ladder engine cactus"⟩ alices_browser) ::
    .step 1 .go :: rest_of_change 0 1 ++ stepping 1 [.time 90, .time 90, .key 2, .go] ++
    .spawn (.jwt (uuid_text 3)) ::
    stepping 2 [.identity as_alice, .text "jwt", .bytes (List.replicate 32 2), .time 90, .time 90,
      .key 9, .go]

/-- Nobody but call `q` has committed a hash of the user's. -/
def only_rotation (t : Table Record) (u : Uuid) (q : Nat) : Bool :=
  t.all fun s => s.versions.all fun x => (x.row.bind users.prj).all fun y =>
    y.id != u || x.writer.all fun k => k == q

theorem only_of_only_rotation {t : Table Record} {u : Uuid} {q : Nat}
    (h : only_rotation t u q = true) : OnlyRotation t u q := by
  intro d s k y hs hv hid
  have hall := List.all_eq_true.mp (List.all_eq_true.mp h s (List.mem_of_getElem? hs)) _ hv
  have hk : (y.id != u || k == q) = true := hall
  rcases Bool.or_eq_true_iff.mp hk with hne | hk
  · exact absurd hid (bne_iff_ne.mp hne)
  · exact beq_iff_eq.mp hk

def changed_hash : String := sample_crates.bcrypt_hash "violet ladder engine cactus" 1

theorem credentials_end_for_alice : ∃ cfg,
    (accessing sample_jwt).run ⟨World.of alice_signed_in, []⟩ changed_in_between = some cfg ∧
    cfg.result 1 ≠ none ∧ cfg.result 2 ≠ none ∧
    CredentialsRotated sample_crates cfg 7 0 changed_hash :=
  ⟨_, rfl, Option.some_ne_none _, Option.some_ne_none _,
    credentials_end_with_the_password sample_jwt alice_signed_in (World.of alice_signed_in)
      changed_in_between _ 7 0 _ _ alice_signed_in_once rfl (by decide) rfl
      (only_of_only_rotation (by decide)) ⟨0, _, _, rfl, List.mem_cons_self, rfl, rfl⟩ rfl rfl⟩

/-- Alice logs in with the old password, and her session comes after the listing. -/
def logged_in_too_late : List (Basis.Event Choice AccessCall Expiry) :=
  .spawn (.login ⟨"alice@example.com", "old password"⟩ alices_browser) :: .step 0 .go ::
    .spawn change_by_alice :: start_of_change 1 ++ rest_of_change 1 1 ++
    stepping 0 [.time 90, .time 90, .key 2, .go]

/-- Alice asks for tokens with her old session, and gets them after the UPDATE. -/
def issued_too_late : List (Basis.Event Choice AccessCall Expiry) :=
  .spawn (.jwt (uuid_text 1)) :: .step 0 (.identity as_alice) ::
    .spawn change_by_alice :: start_of_change 1 ++ rest_of_change 1 1 ++
    stepping 0 [.text "jwt", .bytes (List.replicate 32 2), .time 90, .time 90, .key 9, .go]

/-- **Otherwise they do**, a session and a refresh token, with everything the calls rely on. -/
theorem credentials_outlive_the_password :
    (∃ cfg, (accessing sample_jwt).Along (fun cfg ev => relied_on sample_crates cfg ev = true)
        ⟨World.of alice_signed_in, []⟩ logged_in_too_late ∧
      (accessing sample_jwt).run ⟨World.of alice_signed_in, []⟩ logged_in_too_late = some cfg ∧
      OnlyRotation cfg.shared.db 7 1 ∧ HasRotated cfg.shared.db 7 1 changed_hash ∧
      (cfg.result 1).map (·.status) = some 200 ∧ cfg.result 0 ≠ none ∧
      ¬ CredentialsRotated sample_crates cfg 7 1 changed_hash) ∧
    ∃ cfg, (accessing sample_jwt).Along (fun cfg ev => relied_on sample_crates cfg ev = true)
        ⟨World.of alice_signed_in, []⟩ issued_too_late ∧
      (accessing sample_jwt).run ⟨World.of alice_signed_in, []⟩ issued_too_late = some cfg ∧
      OnlyRotation cfg.shared.db 7 1 ∧ HasRotated cfg.shared.db 7 1 changed_hash ∧
      (cfg.result 1).map (·.status) = some 200 ∧ cfg.result 0 ≠ none ∧
      ¬ CredentialsRotated sample_crates cfg 7 1 changed_hash := by
  refine ⟨⟨_, by decide, rfl, only_of_only_rotation (by decide),
    ⟨0, _, _, rfl, List.mem_cons_self, rfl, rfl⟩, rfl, Option.some_ne_none _, fun hrotated => ?_⟩,
    _, by decide, rfl, only_of_only_rotation (by decide),
    ⟨0, _, _, rfl, List.mem_cons_self, rfl, rfl⟩, rfl, Option.some_ne_none _, fun hrotated => ?_⟩
  · obtain ⟨k, call, ⟨s, hs, hv⟩, hcall, hby⟩ := hrotated.sessions (d := 4) ⟨_, rfl, rfl⟩ rfl
    cases hs
    cases List.mem_singleton.mp hv
    cases hcall
    rcases hby with ⟨hk, -⟩ | ⟨y, hy, -, hhash⟩
    · cases hk
    · cases List.mem_singleton.mp hy
      revert hhash
      decide
  · obtain ⟨k, cookie, -, hcall, hsession⟩ := hrotated.tokens (d := 4) ⟨_, _, rfl, rfl, rfl, by decide⟩
    rcases k with _ | _ | k <;> cases hcall
    revert hsession
    decide

end Authnz
