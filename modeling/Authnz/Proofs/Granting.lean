/-
The books of logins, tokens and rotations.

What each of the five handlers has in hand at every point of its way, and what none
of them changes about a row: an account keeps its id and is never deleted, a session
is only ever inserted and deleted, and its id has one row for good as long as no id
is generated twice.
-/
import Authnz.Proofs.Access

namespace Authnz

open Basis

/-! ### What the replies say of a call -/

/-- The account each SELECT of the call has found first. -/
def accounts_read (log : List ((o : Op) × o.Reply)) : List User :=
  log.filterMap fun
    | ⟨.sql (.select _), r⟩ =>
        match (r : Except DbError (List Record)) with
        | .ok rows => (rows.filterMap users.prj).head?
        | .error _ => none
    | _ => none

/-- The accounts whose hash the password of a login has matched. -/
def logged_into (c : Crates) (call : AccessCall) (log : List ((o : Op) × o.Reply)) : List User :=
  (accounts_read log).filter fun y =>
    call.password.any fun password => c.bcrypt_verify password y.password_hash == some true

/-- The identities the session middleware has handed to the call. -/
def identities (log : List ((o : Op) × o.Reply)) : List Identity :=
  log.filterMap fun
    | ⟨.authenticate _, r⟩ => (r : Option Identity)
    | _ => none

section Logs

variable {c : Crates} {call : AccessCall} {log log' : List ((o : Op) × o.Reply)}

theorem logged_into_mono (h : ∀ e ∈ log, e ∈ log') {y : User} (hy : y ∈ logged_into c call log) :
    y ∈ logged_into c call log' := by
  obtain ⟨hy, hverify⟩ := List.mem_filter.mp hy
  obtain ⟨e, he, hread⟩ := List.mem_filterMap.mp hy
  exact List.mem_filter.mpr ⟨List.mem_filterMap.mpr ⟨e, h e he, hread⟩, hverify⟩

theorem identities_mono (h : ∀ e ∈ log, e ∈ log') {id : Identity} (hid : id ∈ identities log) :
    id ∈ identities log' := by
  obtain ⟨e, he, hread⟩ := List.mem_filterMap.mp hid
  exact List.mem_filterMap.mpr ⟨e, h e he, hread⟩

/-- Who is let in has been logged into. -/
theorem entry_entered {p : Record → Bool} {rows : List Record} {y : User}
    (h : call.entry c rows = .entered y) :
    y ∈ logged_into c call (⟨.sql (.select p), Except.ok rows⟩ :: log) ∧
      ∃ ys, rows.filterMap users.prj = y :: ys := by
  unfold AccessCall.entry at h
  split at h
  · rename_i password y' ys hpassword hrows
    split at h
    · rename_i hverify
      cases h
      refine ⟨List.mem_filter.mpr ⟨?_, by simp [hpassword, hverify]⟩, ys, hrows⟩
      refine List.mem_filterMap.mpr ⟨_, List.mem_cons_self, ?_⟩
      simp [hrows]
    · cases h
  · cases h

theorem entry_cases (c : Crates) (call : AccessCall) (rows : List Record) :
    call.entry c rows = .closed ∨ ∃ y, call.entry c rows = .entered y := by
  unfold AccessCall.entry
  split
  · split
    · exact .inr ⟨_, rfl⟩
    · exact .inl rfl
  · exact .inl rfl

end Logs

/-! ### What stays the same about a row -/

/-- Whose account the row is. -/
def user_key (r : Record) : Option Uuid := (users.prj r).map (·.id)

/-- The key of the table of sessions. -/
def session_key (r : Record) : Option Uuid := (sessions.prj r).map (·.id)

/-- What no handler changes about a row: whose account it is, a session, whose token it is. -/
def constants (r : Record) : Option Uuid × Option Session × Option Uuid :=
  (user_key r, sessions.prj r, (refresh_tokens.prj r).map (·.user_id))

section Constants

variable {a b : Record}

theorem user_of_constants {y : User} (h : constants (.user y) = constants b) :
    ∃ y', b = .user y' ∧ y'.id = y.id := by
  obtain ⟨y', hy', heq⟩ := Option.map_eq_some_iff.mp (Prod.mk.inj h).1.symm
  exact ⟨y', users.inj_of_prj hy', heq⟩

theorem session_of_constants {x : Session} (h : constants (.session x) = constants b) :
    b = .session x := sessions.inj_of_prj (Prod.mk.inj (Prod.mk.inj h).2).1.symm

theorem session_key_of_constants (h : constants a = constants b) :
    session_key a = session_key b :=
  congrArg (Option.map fun x : Session => x.id) (Prod.mk.inj (Prod.mk.inj h).2).1

end Constants

/-- A row keeps what is constant about it, and an account is a row that was there from the start
and is never deleted. -/
structure AccountSlot (rows : List Record) (d : Nat) (s : Slot Record) : Prop where
  same : s.Same constants
  stays : ∀ {y : User}, rows[d]? = some (.user y) → s.Is user_key (some y.id) ∧ s.versions ≠ []
  came : ∀ {y : User}, s.Bears (.user y) → ∃ y₀, rows[d]? = some (.user y₀) ∧ y₀.id = y.id

namespace AccountSlot

variable {rows : List Record} {d me : Nat} {s : Slot Record} {a : Record}

theorem commit (h : AccountSlot rows d s) (me : Nat) : AccountSlot rows d (s.commit me) := by
  refine ⟨fun hr hr' => h.same (Slot.bears_of_commit hr) (Slot.bears_of_commit hr'), fun {y} hy => ?_,
    fun hr => h.came (Slot.bears_of_commit hr)⟩
  obtain ⟨hat, hv⟩ := h.stays hy
  obtain ⟨pre, hpre⟩ := Slot.Turn.commit_suffix me s
  exact ⟨hat.commit, fun hnil => hv (List.append_eq_nil_iff.mp (hpre.symm.trans hnil)).2⟩

theorem rollback (h : AccountSlot rows d s) (me : Nat) : AccountSlot rows d (s.rollback me) := by
  refine ⟨fun hr hr' => h.same (Slot.bears_of_rollback hr) (Slot.bears_of_rollback hr'),
    fun {y} hy => ?_, fun hr => h.came (Slot.bears_of_rollback hr)⟩
  obtain ⟨hat, hv⟩ := h.stays hy
  exact ⟨hat.rollback, by rwa [Slot.versions_rollback]⟩

theorem hold (h : AccountSlot rows d s) (hview : s.view me = some a) {v : Option Record}
    (hv : ∀ b, v = some b → constants a = constants b)
    (hstays : user_key a ≠ none → v ≠ none) : AccountSlot rows d (s.hold me v) := by
  have hbears : ∀ {r : Record}, (s.hold me v).Bears r →
      ∃ r', s.Bears r' ∧ constants r = constants r' := by
    intro r hr
    rcases hr with hx | ⟨k, hl⟩
    · exact ⟨r, .inl hx, rfl⟩
    · obtain ⟨-, rfl⟩ : me = k ∧ v = some r := by simpa [Slot.hold] using hl
      exact ⟨a, Slot.bears_of_view hview, (hv r rfl).symm⟩
  refine ⟨fun {r r'} hr hr' => ?_, fun {y} hy => ?_, fun {y} hr => ?_⟩
  · obtain ⟨b, hb, heq⟩ := hbears hr
    obtain ⟨b', hb', heq'⟩ := hbears hr'
    rw [heq, heq', h.same hb hb']
  · obtain ⟨hat, hversions⟩ := h.stays hy
    have ha := hat.of_bears (Slot.bears_of_view hview)
    have hsome : v ≠ none := hstays (by rw [ha]; exact Option.some_ne_none _)
    obtain ⟨b, rfl⟩ := Option.ne_none_iff_exists'.mp hsome
    exact ⟨hat.hold ((congrArg Prod.fst (hv b rfl)).symm.trans ha), hversions⟩
  · obtain ⟨b, hb, heq⟩ := hbears hr
    obtain ⟨y', rfl, hid⟩ := user_of_constants heq
    obtain ⟨y₀, hy₀, hid₀⟩ := h.came hb
    exact ⟨y₀, hy₀, hid₀.trans hid⟩

theorem fresh (hd : rows.length ≤ d) (ha : user_key a = none) :
    AccountSlot rows d (Slot.fresh me a) := by
  have hbears : ∀ {r : Record}, (Slot.fresh me a).Bears r → r = a := by
    intro r hr
    obtain ⟨w, hw⟩ := Slot.bears_iff.mp hr
    exact Option.some.inj (Slot.carries_of_fresh hw).2
  refine ⟨fun hr hr' => by rw [hbears hr, hbears hr'], fun {y} hy => ?_, fun {y} hr => ?_⟩
  · exact absurd (List.getElem?_eq_some_iff.mp hy).1 (by omega)
  · rw [← hbears hr] at ha
    cases ha

theorem loaded {r : Record} (hr : rows[d]? = some r) : AccountSlot rows d (Slot.loaded r) := by
  refine ⟨Slot.Same.loaded _ r, fun {y} hy => ?_, fun {y} hb => ?_⟩
  · obtain rfl := Option.some.inj (hr.symm.trans hy)
    exact ⟨Slot.Is.loaded _, List.cons_ne_nil _ _⟩
  · obtain ⟨w, hw⟩ := Slot.bears_iff.mp hb
    obtain rfl := Option.some.inj (Slot.carries_of_loaded hw).2
    exact ⟨y, hr, rfl⟩

/-- An account is there, whoever looks at it. -/
theorem view (h : AccountSlot rows d s) {y : User} (hy : rows[d]? = some (.user y)) (me : Nat) :
    ∃ y', s.view me = some (.user y') ∧ y'.id = y.id := by
  obtain ⟨hat, hv⟩ := h.stays hy
  have huser : ∀ {r : Record}, user_key r = some y.id → ∃ y', r = .user y' ∧ y'.id = y.id := by
    intro r hr
    obtain ⟨y', hy', hid⟩ := Option.map_eq_some_iff.mp hr
    exact ⟨y', users.inj_of_prj hy', hid⟩
  obtain ⟨r, hcur, hr⟩ := hat.current hv
  obtain ⟨y', rfl, hid⟩ := huser hr
  cases hl : s.lock with
  | none => exact ⟨y', by rw [Slot.view_of_unlocked hl, hcur], hid⟩
  | some l =>
      obtain ⟨t, v⟩ := l
      by_cases ht : t = me
      · subst ht
        obtain ⟨r', rfl, hr'⟩ := hat.lock hl
        obtain ⟨y'', rfl, hid'⟩ := huser hr'
        exact ⟨y'', Slot.view_of_own hl, hid'⟩
      · exact ⟨y', by rw [Slot.view_of_other hl ht, hcur], hid⟩

end AccountSlot

/-! ### What the calls hold and have committed -/

/-- The row has been committed at this place. -/
def FiledAt (t : Table Record) (d : Nat) (r : Record) : Prop :=
  ∃ (s : Slot Record) (x : Version Record), t[d]? = some s ∧ x ∈ s.versions ∧ x.row = some r

/-- All of the user's rows are among these. -/
def Covers (rows : List Record) (u : Uuid) (is : List Nat) : Prop :=
  ∀ (d : Nat) (y : User), rows[d]? = some (.user y) → y.id = u → d ∈ is

/-- Call `k` has committed this hash in all of the user's rows. -/
def Rotates (rows : List Record) (t : Table Record) (k : Nat) (u : Uuid) (hash : String) : Prop :=
  ∀ (d : Nat) (y₀ : User), rows[d]? = some (.user y₀) → y₀.id = u →
    ∃ s y, t[d]? = some s ∧ ⟨some k, some (.user y)⟩ ∈ s.versions ∧ y.id = u ∧
      y.password_hash = hash

/-- The row is the user's, with this hash. -/
def IsAccount (u : Uuid) (hash : String) (r : Record) : Prop :=
  ∃ y, r = .user y ∧ y.id = u ∧ y.password_hash = hash

def IsReset (r : Record) : Prop := ∃ p, r = .password_reset p

/-- The session is one the user has had. -/
def WasOf (t : Table Record) (u : Uuid) (x : Session) : Prop :=
  (∃ d, FiledAt t d (.session x)) ∧ x.sub = u

/-- The call is for a pair of tokens, and has been let in with this identity. -/
def AcceptedAs (call : AccessCall) (log : List ((o : Op) × o.Reply)) (id : Identity) : Prop :=
  (∃ cookie, call = .jwt cookie) ∧ id ∈ identities log

/-- What a call in this phase holds, has committed and knows. -/
def AccessFacts (c : Crates) (rows : List Record) (t : Table Record) (k : Nat) (call : AccessCall)
    (log : List ((o : Op) × o.Reply)) : AccessPhase → Prop
  | .start | .closed | .refused | .admitted | .issued | .opened | .identified _ => t.Holds k []
  | .failed => False
  | .entered y => t.Holds k [] ∧ y ∈ logged_into c call log
  | .logged_in y => (∃ d x, t.Holds k [(d, some (.session x))] ∧ x.sub = y.id) ∧
      y ∈ logged_into c call log
  | .accepted id => t.Holds k [] ∧ AcceptedAs call log id
  | .put id => (∃ d tok, t.Holds k [(d, some (.refresh_token tok))] ∧ tok.user_id = id.sub) ∧
      AcceptedAs call log id
  | .spending is acc => t.Holds k (marks acc) ∧ (acc.map Prod.fst ++ is).Nodup ∧
      ∀ x ∈ acc, IsReset x.2
  | .hashed _ _ spent => t.Holds k (marks spent) ∧ ∀ x ∈ spent, IsReset x.2
  | .updating u hash spent is acc => t.Holds k (marks spent ++ marks acc) ∧
      (acc.map Prod.fst ++ is).Nodup ∧ (∀ x ∈ spent, IsReset x.2) ∧
      (∀ x ∈ acc, IsAccount u hash x.2) ∧ Covers rows u (acc.map Prod.fst ++ is)
  | .rotated u hash | .settled u hash | .halted u hash | .done u hash =>
      t.Holds k [] ∧ Rotates rows t k u hash
  | .sweeping u hash todo => t.Holds k [] ∧ Rotates rows t k u hash ∧ ∀ x ∈ todo, WasOf t u x
  | .taking u hash x todo is acc => t.Holds k (gone acc) ∧ (acc.map Prod.fst ++ is).Nodup ∧
      Rotates rows t k u hash ∧ (∀ y ∈ x :: todo, WasOf t u y) ∧
      ∀ y ∈ acc, FiledAt t y.1 y.2 ∧ y.2 = .session x
  | .renewing u hash user => t.Holds k [] ∧ Rotates rows t k u hash ∧ user.id = u ∧
      call.changes = true
  | .renewed u hash => (∃ d x, t.Holds k [(d, some (.session x))] ∧ x.sub = u) ∧
      Rotates rows t k u hash ∧ call.changes = true
  | .marking u hash is acc => t.Holds k (marks acc) ∧ (acc.map Prod.fst ++ is).Nodup ∧
      Rotates rows t k u hash ∧ ∀ x ∈ acc, IsRevoked x.2

/-- What a call in this phase may be about to leave at place `d`. -/
inductive HeldIn (t : Table Record) (d : Nat) : AccessPhase → Option Record → Prop
  | reset {ph : AccessPhase} {r : Record} (h : IsReset r) : HeldIn t d ph (some r)
  | account {u : Uuid} {hash : String} {spent : List (Nat × Record)} {is : List Nat}
      {acc : List (Nat × Record)} {r : Record} (h : IsAccount u hash r) :
      HeldIn t d (.updating u hash spent is acc) (some r)
  | login {y : User} {x : Session} (h : x.sub = y.id) :
      HeldIn t d (.logged_in y) (some (.session x))
  | renewal {u : Uuid} {hash : String} {x : Session} (h : x.sub = u) :
      HeldIn t d (.renewed u hash) (some (.session x))
  | token {id : Identity} {tok : RefreshToken} (h : tok.user_id = id.sub) :
      HeldIn t d (.put id) (some (.refresh_token tok))
  | revoked {u : Uuid} {hash : String} {is : List Nat} {acc : List (Nat × Record)} {r : Record}
      (h : IsRevoked r) : HeldIn t d (.marking u hash is acc) (some r)
  | deleted {u : Uuid} {hash : String} {x : Session} {todo : List Session} {is : List Nat}
      {acc : List (Nat × Record)} (h : FiledAt t d (.session x)) (hsub : x.sub = u) :
      HeldIn t d (.taking u hash x todo is acc) none

section Facts

variable {c : Crates} {rows : List Record} {t t' : Table Record} {k me d : Nat} {u : Uuid}
  {hash : String} {call : AccessCall} {log : List ((o : Op) × o.Reply)} {ph : AccessPhase}

theorem FiledAt.effect {r : Record} (h : FiledAt t d r) (he : Effect me t t') :
    FiledAt t' d r := by
  obtain ⟨s, x, hs, hx, hrow⟩ := h
  obtain ⟨s', hs', hx'⟩ := he.version_stays hs hx
  exact ⟨s', x, hs', hx', hrow⟩

theorem FiledAt.of_current {r : Record} {s : Slot Record} (hs : t[d]? = some s)
    (h : s.current = some r) : FiledAt t d r := by
  obtain ⟨x, hx, hrow⟩ := Option.bind_eq_some_iff.mp h
  exact ⟨s, x, hs, List.mem_of_mem_head? hx, hrow⟩

theorem WasOf.effect {x : Session} (h : WasOf t u x) (he : Effect me t t') : WasOf t' u x := by
  obtain ⟨⟨d, hfile⟩, hsub⟩ := h
  exact ⟨⟨d, hfile.effect he⟩, hsub⟩

theorem Rotates.effect (h : Rotates rows t k u hash) (he : Effect me t t') :
    Rotates rows t' k u hash := by
  intro d y₀ hd hid
  obtain ⟨s, y, hs, hv, hy⟩ := h d y₀ hd hid
  obtain ⟨s', hs', hv'⟩ := he.version_stays hs hv
  exact ⟨s', y, hs', hv', hy⟩

theorem AccessFacts.other (h : AccessFacts c rows t k call log ph) (he : Effect me t t')
    (hk : k ≠ me) : AccessFacts c rows t' k call log ph := by
  have hold : ∀ {H : List (Nat × Option Record)}, t.Holds k H → t'.Holds k H :=
    he.holds_other hk
  cases ph with
  | start | closed | refused | admitted | issued | opened | identified u => exact hold h
  | failed => exact h
  | entered y | accepted id | spending is acc | hashed u hash spent
  | updating u hash spent is acc => exact ⟨hold h.1, h.2⟩
  | logged_in y =>
      obtain ⟨⟨d, x, hx, hsub⟩, hread⟩ := h
      exact ⟨⟨d, x, hold hx, hsub⟩, hread⟩
  | put id =>
      obtain ⟨⟨d, tok, htok, hsub⟩, hread⟩ := h
      exact ⟨⟨d, tok, hold htok, hsub⟩, hread⟩
  | rotated u hash | settled u hash | halted u hash | done u hash =>
      exact ⟨hold h.1, h.2.effect he⟩
  | sweeping u hash todo =>
      exact ⟨hold h.1, h.2.1.effect he, fun x hx => (h.2.2 x hx).effect he⟩
  | taking u hash x todo is acc =>
      obtain ⟨ht, hnodup, hrot, hwas, hacc⟩ := h
      exact ⟨hold ht, hnodup, hrot.effect he, fun y hy => (hwas y hy).effect he,
        fun y hy => ⟨(hacc y hy).1.effect he, (hacc y hy).2⟩⟩
  | renewing u hash user => exact ⟨hold h.1, h.2.1.effect he, h.2.2⟩
  | renewed u hash =>
      obtain ⟨⟨d, x, hx, hsub⟩, hrot, hchanges⟩ := h
      exact ⟨⟨d, x, hold hx, hsub⟩, hrot.effect he, hchanges⟩
  | marking u hash is acc => exact ⟨hold h.1, h.2.1, h.2.2.1.effect he, h.2.2.2⟩

/-- A call that has rotated a password has committed the new hash. -/
theorem AccessFacts.rotates (h : AccessFacts c rows t k call log ph) (hph : ph.Since u hash) :
    Rotates rows t k u hash := by
  cases ph with
  | rotated v h' | settled v h' | halted v h' | done v h' =>
      obtain ⟨rfl, rfl⟩ := hph
      exact h.2
  | sweeping v h' todo | renewing v h' user =>
      obtain ⟨rfl, rfl⟩ := hph
      exact h.2.1
  | taking v h' x todo is acc | marking v h' is acc =>
      obtain ⟨rfl, rfl⟩ := hph
      exact h.2.2.1
  | renewed v h' =>
      obtain ⟨rfl, rfl⟩ := hph
      exact h.2.1
  | _ => exact hph.elim

/-- What a call holds, by its phase. -/
theorem AccessFacts.held (h : AccessFacts c rows t k call log ph) {s : Slot Record}
    {v : Option Record} (hs : t[d]? = some s) (hl : s.lock = some (k, v)) : HeldIn t d ph v := by
  have hlocked : t.Locked k d v := ⟨s, hs, hl⟩
  have hnone : t.Holds k [] → HeldIn t d ph v := fun ht => by cases (ht d v).mp hlocked
  cases ph with
  | start | closed | refused | admitted | issued | opened | identified u => exact hnone h
  | failed => exact h.elim
  | entered y | accepted id | rotated u hash | settled u hash | halted u hash | done u hash
  | sweeping u hash todo | renewing u hash user => exact hnone h.1
  | logged_in y =>
      obtain ⟨⟨e, x, ht, hsub⟩, -⟩ := h
      cases List.mem_singleton.mp ((ht d v).mp hlocked)
      exact .login hsub
  | put id =>
      obtain ⟨⟨e, tok, ht, hsub⟩, -⟩ := h
      cases List.mem_singleton.mp ((ht d v).mp hlocked)
      exact .token hsub
  | renewed u hash =>
      obtain ⟨⟨e, x, ht, hsub⟩, -⟩ := h
      cases List.mem_singleton.mp ((ht d v).mp hlocked)
      exact .renewal hsub
  | spending is acc =>
      obtain ⟨x, hx, heq⟩ := List.mem_map.mp ((h.1 d v).mp hlocked)
      cases heq
      exact .reset (h.2.2 x hx)
  | hashed u hash spent =>
      obtain ⟨x, hx, heq⟩ := List.mem_map.mp ((h.1 d v).mp hlocked)
      cases heq
      exact .reset (h.2 x hx)
  | updating u hash spent is acc =>
      obtain ⟨ht, -, hspent, hacc, -⟩ := h
      rcases List.mem_append.mp ((ht d v).mp hlocked) with hv | hv
      · obtain ⟨x, hx, heq⟩ := List.mem_map.mp hv
        cases heq
        exact .reset (hspent x hx)
      · obtain ⟨x, hx, heq⟩ := List.mem_map.mp hv
        cases heq
        exact .account (hacc x hx)
  | taking u hash x todo is acc =>
      obtain ⟨ht, -, -, hwas, hacc⟩ := h
      obtain ⟨rfl, r, hr⟩ := mem_gone.mp ((ht d v).mp hlocked)
      obtain ⟨hfile, rfl⟩ := hacc (d, r) hr
      exact .deleted hfile (hwas x List.mem_cons_self).2
  | marking u hash is acc =>
      obtain ⟨x, hx, heq⟩ := List.mem_map.mp ((h.1 d v).mp hlocked)
      cases heq
      exact .revoked (h.2.2.2 x hx)

end Facts

/-! ### The invariant -/

abbrev AccessGhost (c : Crates) : Type := (granting c).Ghost

theorem access_stable (c : Crates) (rows : List Record) : Stable (P := granting c)
    (fun _ d s => AccountSlot rows d s)
    fun t k g => AccessFacts c rows t k g.call g.log g.phase where
  commit h := h.commit _
  rollback h := h.rollback _
  calls h _ := h
  facts h he hk := h.other he hk

/-- **The books of the five handlers**: what each call has in hand and has committed, what no row
loses, and that a session's id is its own. -/
structure AccessKept (c : Crates) (rows : List Record) (t : Table Record)
    (gs : List (AccessGhost c)) : Prop where
  journal : Journal (fun _ d s => AccountSlot rows d s)
    (fun t k g => AccessFacts c rows t k g.call g.log g.phase) rows.length t gs
  keyed : t.Keyed session_key

/-- No row has had this session id. -/
def NewId (t : Table Record) (id : Uuid) : Prop :=
  ∀ (d : Nat) (s : Slot Record) (r : Record), t[d]? = some s → s.Bears r → session_key r ≠ some id

/-- No two rows are sessions of one id. -/
def DistinctSessions (rows : List Record) : Prop :=
  ∀ {d e : Nat} {r r' : Record} {id : Uuid}, rows[d]? = some r → rows[e]? = some r' →
    session_key r = some id → session_key r' = some id → d = e

section Steps

variable {c : Crates} {rows : List Record} {gs : List (AccessGhost c)} {w w' : World} {i : Nat}
  {ch : Choice} {g g' : AccessGhost c}

namespace AccessKept

theorem same (hI : AccessKept c rows w.db gs) (hg : gs[i]? = some g) (hcall : g'.call = g.call)
    (hdb : w'.db = w.db) (hf : AccessFacts c rows w.db i g'.call g'.log g'.phase) :
    AccessKept c rows w'.db (gs.set i g') := by
  rw [hdb]
  exact ⟨hI.journal.same (access_stable c rows) hg hcall hf, hI.keyed⟩

theorem commit (hI : AccessKept c rows w.db gs) (hg : gs[i]? = some g) (hcall : g'.call = g.call)
    (hdb : w'.db = w.db.map (Slot.commit i))
    (hf : AccessFacts c rows (w.db.map (Slot.commit i)) i g'.call g'.log g'.phase) :
    AccessKept c rows w'.db (gs.set i g') := by
  rw [hdb]
  exact ⟨hI.journal.commit (access_stable c rows) hg hcall hf, hI.keyed.commit i⟩

theorem rollback (hI : AccessKept c rows w.db gs) (hg : gs[i]? = some g)
    (hcall : g'.call = g.call) (hdb : w'.db = w.db.map (Slot.rollback i))
    (hf : AccessFacts c rows (w.db.map (Slot.rollback i)) i g'.call g'.log g'.phase) :
    AccessKept c rows w'.db (gs.set i g') := by
  rw [hdb]
  exact ⟨hI.journal.rollback (access_stable c rows) hg hcall hf, hI.keyed.rollback i⟩

/-- A call takes a row. -/
theorem take (hI : AccessKept c rows w.db gs) (hg : gs[i]? = some g) (hcall : g'.call = g.call)
    {d : Nat} {s : Slot Record} {old : Record} {v : Option Record} (hs : w.db[d]? = some s)
    (hfree : s.free i = true) (hview : s.view i = some old)
    (hv : ∀ b, v = some b → constants old = constants b) (hstays : user_key old ≠ none → v ≠ none)
    (hdb : w'.db = w.db.set d (s.hold i v))
    (hf : AccessFacts c rows (w.db.set d (s.hold i v)) i g'.call g'.log g'.phase) :
    AccessKept c rows w'.db (gs.set i g') := by
  rw [hdb]
  exact ⟨hI.journal.take (access_stable c rows) hg hcall hs hfree hview
    (fun hat => hat.hold hview hv hstays) hf,
    hI.keyed.take hs hview fun hnew => (session_key_of_constants (hv _ hnew)).symm⟩

/-- A call inserts a row. -/
theorem insert (hI : AccessKept c rows w.db gs) (hg : gs[i]? = some g) (hcall : g'.call = g.call)
    {r : Record} (huser : user_key r = none)
    (hnew : ∀ {id : Uuid}, session_key r = some id → NewId w.db id)
    (hdb : w'.db = w.db ++ [Slot.fresh i r])
    (hf : AccessFacts c rows (w.db ++ [Slot.fresh i r]) i g'.call g'.log g'.phase) :
    AccessKept c rows w'.db (gs.set i g') := by
  rw [hdb]
  exact ⟨hI.journal.insert (access_stable c rows) hg hcall (.fresh hI.journal.length huser) hf,
    hI.keyed.insert fun hid => hnew hid _ _ _⟩

theorem spawn {t : Table Record} (hI : AccessKept c rows t gs) (call : AccessCall) :
    AccessKept c rows t (gs ++ [⟨call, [], .start⟩]) :=
  ⟨hI.journal.spawn (access_stable c rows) fun ht => ht.holds rfl, hI.keyed⟩

end AccessKept

/-- A statement that reads finds committed rows. -/
theorem read_current {q : Record → Bool} (ht : w.db.Holds i []) {r : Record}
    (hr : r ∈ (w.db.filterMap (Slot.view i)).filter q) :
    ∃ (d : Nat) (s : Slot Record), w.db[d]? = some s ∧ s.current = some r ∧ q r = true := by
  obtain ⟨hview, hq⟩ := List.mem_filter.mp hr
  obtain ⟨s, hs, hv⟩ := List.mem_filterMap.mp hview
  obtain ⟨d, hd⟩ := List.mem_iff_getElem?.mp hs
  rw [ht.view hd (by simp)] at hv
  exact ⟨d, s, hd, hv, hq⟩

/-- A session with the id of one the user has had is that one. -/
theorem AccessKept.session_of_id {t : Table Record} (hI : AccessKept c rows t gs) {d : Nat}
    {s : Slot Record} {u : Uuid} {x z : Session} (hwas : WasOf t u x) (hs : t[d]? = some s)
    (hz : s.Bears (.session z)) (hid : z.id = x.id) : z = x := by
  obtain ⟨⟨e, s', y, hs', hy, hrow⟩, -⟩ := hwas
  have hx : s'.Bears (.session x) := .inl ⟨y, hy, hrow⟩
  obtain rfl := hI.keyed _ _ _ _ _ _ _ hs hs' hz hx (congrArg some hid) rfl
  obtain rfl := Option.some.inj (hs.symm.trans hs')
  have hsame := session_of_constants ((hI.journal.slots hs).same hx hz)
  exact Record.session.inj hsame

/-- All of the user's rows are in a statement's snapshot. -/
theorem AccessKept.covers_matching (hI : AccessKept c rows w.db gs) (me : Nat) (u : Uuid) :
    Covers rows u (SqlOp.matching me (users.sel (UserIs u)) w.db) := by
  intro d y hd hid
  have hlt : d < w.db.length := Nat.lt_of_lt_of_le (List.getElem?_eq_some_iff.mp hd).1
    hI.journal.length
  have hs : w.db[d]? = some w.db[d] := List.getElem?_eq_getElem hlt
  obtain ⟨y', hview, hid'⟩ := (hI.journal.slots hs).view hd me
  refine mem_matching.mpr ⟨_, hs, ?_⟩
  rw [Slot.hits, hview, Option.any_some]
  exact users.sel_iff.mpr ⟨y', rfl, beq_iff_eq.mpr (hid'.trans hid)⟩

/-! ### The steps that insert, take or commit rows -/

namespace AccessKept

variable {call : AccessCall} {log : List ((o : Op) × o.Reply)} {o : Op} {r : o.Reply} {u : Uuid}
  {hash : String} {d : Nat} {is : List Nat} {acc spent : List (Nat × Record)}
  {rows' : List Record}

/-- A session is inserted, with an id that is new. -/
theorem put_session_step (hI : AccessKept c rows w.db gs) {new : NewSession} {row : Record}
    {ph ph' : AccessPhase} (hg : gs[i]? = some ⟨call, log, ph⟩)
    (hans : World.answer c i (put_session new) ch w = some (w', Except.ok row))
    (hnew : ∀ n, World.outcome ch = some (.done n) → NewId w.db n) (ht : w.db.Holds i [])
    (hf : ∀ {t : Table Record}, Effect i w.db t →
      (∃ d x, t.Holds i [(d, some (.session x))] ∧ x.sub = new.sub) →
      AccessFacts c rows t i call (⟨put_session new, Except.ok row⟩ :: log) ph') :
    AccessKept c rows w'.db (gs.set i ⟨call, ⟨put_session new, Except.ok row⟩ :: log, ph'⟩) := by
  rcases World.answer_insert hans with ⟨-, e, hr⟩ | ⟨key, hout, -, -, hdb, -⟩
  · cases hr
  · refine hI.insert hg rfl rfl (fun hid => ?_) hdb
      (hf (.insert _) ⟨_, new.withId key, ht.insert _, rfl⟩)
    cases hid
    exact hnew key hout

/-- An INSERT that is refused leaves everything as it was. -/
theorem refused_step (hI : AccessKept c rows w.db gs) {mk : Uuid → Record}
    {clashes : Record → Record → Bool} {e : DbError} {ph ph' : AccessPhase}
    (hg : gs[i]? = some ⟨call, log, ph⟩)
    (hans : World.answer c i (.sql (.insert .tx mk clashes)) ch w = some (w', Except.error e))
    (hf : AccessFacts c rows w.db i call
      (⟨.sql (.insert .tx mk clashes), Except.error e⟩ :: log) ph') :
    AccessKept c rows w'.db
      (gs.set i ⟨call, ⟨.sql (.insert .tx mk clashes), Except.error e⟩ :: log, ph'⟩) := by
  have hdb := World.answer_insert_failed hans
  exact hI.same hg rfl hdb hf

/-- A statement's snapshot. -/
theorem scan_step (hI : AccessKept c rows w.db gs) {p : Record → Bool} {ph ph' : AccessPhase}
    (hg : gs[i]? = some ⟨call, log, ph⟩)
    (hans : World.answer c i (.sql (.scan p)) ch w = some (w', Except.ok is))
    (hf : is = SqlOp.matching i p w.db → is.Nodup →
      AccessFacts c rows w.db i call (⟨.sql (.scan p), Except.ok is⟩ :: log) ph') :
    AccessKept c rows w'.db (gs.set i ⟨call, ⟨.sql (.scan p), Except.ok is⟩ :: log, ph'⟩) := by
  obtain ⟨rfl, rfl⟩ := World.answer_scanned hans
  exact hI.same hg rfl rfl (hf rfl (nodup_matching i _ _))

/-- A reset marks a row of its token used. -/
theorem spend_step (hI : AccessKept c rows w.db gs) {q : PasswordReset → Bool}
    (hg : gs[i]? = some ⟨call, log, .spending (d :: is) acc⟩)
    (hans : World.answer c i (.sql (.visit d (password_resets.sel q)
      (password_resets.set (·.spent)))) ch w = some (w', Except.ok rows')) :
    AccessKept c rows w'.db (gs.set i ⟨call, ⟨.sql (.visit d (password_resets.sel q)
      (password_resets.set (·.spent))), Except.ok rows'⟩ :: log,
      .spending is (acc ++ rows'.map fun x => (d, x))⟩) := by
  obtain ⟨ht, hnodup, hreset⟩ : AccessFacts c rows w.db i call log (.spending (d :: is) acc) :=
    hI.journal.facts hg
  rcases World.answer_visit hans with ⟨hdb, hr | ⟨hr, -⟩⟩ | ⟨s, a, hs, hfree, hview, hp, hdb, hr⟩
  · cases hr
  · obtain rfl := Except.ok.inj hr
    exact hI.same hg rfl hdb ⟨by simpa using ht, by simpa using nodup_missed hnodup,
      by simpa using hreset⟩
  · obtain rfl := Except.ok.inj hr
    obtain ⟨p, rfl, -⟩ := password_resets.sel_iff.mp hp
    rw [password_resets.set_inj] at hdb ⊢
    have htake := ht.hold hs (some (password_resets.inj p.spent)) (not_mem_marks hnodup)
    refine hI.take hg rfl hs hfree hview (fun b hb => by cases hb; rfl)
      (fun _ => Option.some_ne_none _) hdb ⟨by simpa [marks] using htake, nodup_taken hnodup,
        fun x hx => ?_⟩
    rcases List.mem_append.mp hx with hx | hx
    · exact hreset x hx
    · obtain rfl := List.mem_singleton.mp hx
      exact ⟨p.spent, rfl⟩

/-- The new hash goes into a row of the user's. -/
theorem update_step (hI : AccessKept c rows w.db gs) {f : User → User}
    (hset : ∀ y, (f y).id = y.id ∧ (f y).password_hash = hash)
    (hg : gs[i]? = some ⟨call, log, .updating u hash spent (d :: is) acc⟩)
    (hans : World.answer c i (.sql (.visit d (users.sel (UserIs u)) (users.set f))) ch w =
      some (w', Except.ok rows')) :
    AccessKept c rows w'.db (gs.set i ⟨call, ⟨.sql (.visit d (users.sel (UserIs u))
      (users.set f)), Except.ok rows'⟩ :: log,
      .updating u hash spent is (acc ++ rows'.map fun x => (d, x))⟩) := by
  obtain ⟨ht, hnodup, hspent, hacc, hcovers⟩ :
    AccessFacts c rows w.db i call log (.updating u hash spent (d :: is) acc) := hI.journal.facts hg
  rcases World.answer_visit hans with ⟨hdb, hr | ⟨hr, hmiss⟩⟩ |
    ⟨s, a, hs, hfree, hview, hp, hdb, hr⟩
  · cases hr
  · obtain rfl := Except.ok.inj hr
    refine hI.same hg rfl hdb ⟨by simpa using ht, by simpa using nodup_missed hnodup, hspent,
      by simpa using hacc, fun e y he hid => ?_⟩
    have hmem := hcovers e y he hid
    have hne : e ≠ d := by
      rintro rfl
      obtain ⟨s, hs, hhits⟩ := mem_matching.mp (hI.covers_matching i u e y he hid)
      rw [(hmiss s hs).2] at hhits
      cases hhits
    simpa [hne] using hmem
  · obtain rfl := Except.ok.inj hr
    obtain ⟨y, rfl, hid⟩ := users.sel_iff.mp hp
    have hid : y.id = u := beq_iff_eq.mp hid
    rw [users.set_inj] at hdb ⊢
    have hd : ∀ v, (d, v) ∉ marks spent ++ marks acc := by
      intro v hv
      rcases List.mem_append.mp hv with hv | hv
      · -- the transaction's first statement has taken no account
        obtain ⟨s', hs', hl⟩ := (ht d v).mpr (List.mem_append_left _ hv)
        obtain rfl := Option.some.inj (hs.symm.trans hs')
        obtain ⟨x, hx, heq⟩ := List.mem_map.mp hv
        obtain ⟨p, hreset⟩ := hspent x hx
        rw [Slot.view_of_own hl, ← (Prod.mk.inj heq).2, hreset] at hview
        cases hview
      · exact not_mem_marks hnodup v hv
    have htake := ht.hold hs (some (users.inj (f y))) hd
    refine hI.take hg rfl hs hfree hview (fun b hb => ?_) (fun _ => Option.some_ne_none _) hdb
      ⟨by simpa [marks] using htake, nodup_taken hnodup, hspent, fun x hx => ?_, ?_⟩
    · cases hb
      exact congrArg (fun id => (some id, none, none)) (hset y).1.symm
    · rcases List.mem_append.mp hx with hx | hx
      · exact hacc x hx
      · obtain rfl := List.mem_singleton.mp hx
        exact ⟨f y, rfl, (hset y).1.trans hid, (hset y).2⟩
    · intro e y' he hid'
      simpa [or_assoc] using hcovers e y' he hid'

/-- The new hash is committed, in all of the user's rows. -/
theorem rotate_step (hI : AccessKept c rows w.db gs)
    (hg : gs[i]? = some ⟨call, log, .updating u hash spent [] acc⟩)
    (hans : World.answer c i (.sql .commit) ch w = some (w', Except.ok ())) :
    AccessKept c rows w'.db
      (gs.set i ⟨call, ⟨.sql .commit, Except.ok ()⟩ :: log, .rotated u hash⟩) := by
  obtain ⟨ht, -, -, hacc, hcovers⟩ :
    AccessFacts c rows w.db i call log (.updating u hash spent [] acc) := hI.journal.facts hg
  have hdb := World.answer_committed hans
  refine hI.commit hg rfl hdb ⟨Table.Holds.commit _, fun d y₀ hd hid => ?_⟩
  have hmem : d ∈ acc.map Prod.fst := by simpa using hcovers d y₀ hd hid
  obtain ⟨x, hx, rfl⟩ := List.mem_map.mp hmem
  obtain ⟨y, hy, hyid, hyhash⟩ := hacc x hx
  obtain ⟨s, hs, hl⟩ := (ht x.1 (some x.2)).mpr
    (List.mem_append_right _ (List.mem_map.mpr ⟨x, hx, rfl⟩))
  refine ⟨_, y, by rw [List.getElem?_map, hs, Option.map_some], ?_, hyid, hyhash⟩
  rw [Slot.commit_of_own hl, hy]
  exact List.mem_cons_self

/-- A listed session is deleted. -/
theorem take_step (hI : AccessKept c rows w.db gs) {x : Session} {todo : List Session}
    (hg : gs[i]? = some ⟨call, log, .taking u hash x todo (d :: is) acc⟩)
    (hans : World.answer c i (take_session x.id d) ch w = some (w', Except.ok rows')) :
    AccessKept c rows w'.db (gs.set i ⟨call, ⟨take_session x.id d, Except.ok rows'⟩ :: log,
      .taking u hash x todo is (acc ++ rows'.map fun y => (d, y))⟩) := by
  obtain ⟨ht, hnodup, hrot, hwas, hacc⟩ :
    AccessFacts c rows w.db i call log (.taking u hash x todo (d :: is) acc) := hI.journal.facts hg
  rcases World.answer_visit hans with ⟨hdb, hr | ⟨hr, -⟩⟩ | ⟨s, a, hs, hfree, hview, hp, hdb, hr⟩
  · cases hr
  · obtain rfl := Except.ok.inj hr
    exact hI.same hg rfl hdb ⟨by simpa using ht, by simpa using nodup_missed hnodup, hrot, hwas,
      by simpa using hacc⟩
  · obtain rfl := Except.ok.inj hr
    have heff : Effect i w.db (w.db.set d (s.hold i none)) := .hold hs hfree hview
    have hcur : s.current = some a := by
      rw [← ht.view hs (not_mem_gone hnodup), hview]
    obtain ⟨z, rfl, hid⟩ := sessions.sel_iff.mp hp
    obtain rfl := hI.session_of_id (hwas x List.mem_cons_self) hs (Slot.bears_of_current hcur)
      (beq_iff_eq.mp hid)
    have hdb : w'.db = w.db.set d (s.hold i none) := hdb
    have htake := ht.hold hs none (not_mem_gone hnodup)
    refine hI.take hg rfl hs hfree hview (fun b hb => by cases hb) (fun h => absurd rfl h) hdb
      ⟨by simpa [gone] using htake, nodup_taken hnodup, hrot.effect heff,
        fun y hy => (hwas y hy).effect heff, fun y hy => ?_⟩
    rcases List.mem_append.mp hy with hy | hy
    · exact ⟨(hacc y hy).1.effect heff, (hacc y hy).2⟩
    · obtain rfl := List.mem_singleton.mp hy
      have hfile : FiledAt w.db d (.session z) := .of_current hs hcur
      exact ⟨hfile.effect heff, rfl⟩

/-- A token of the user's is revoked. -/
theorem mark_step (hI : AccessKept c rows w.db gs)
    (hg : gs[i]? = some ⟨call, log, .marking u hash (d :: is) acc⟩)
    (hans : World.answer c i (mark_token (TokenOf u) d) ch w = some (w', Except.ok rows')) :
    AccessKept c rows w'.db (gs.set i ⟨call, ⟨mark_token (TokenOf u) d, Except.ok rows'⟩ :: log,
      .marking u hash is (acc ++ rows'.map fun x => (d, x))⟩) := by
  obtain ⟨ht, hnodup, hrot, hrev⟩ :
    AccessFacts c rows w.db i call log (.marking u hash (d :: is) acc) := hI.journal.facts hg
  rcases World.answer_visit hans with ⟨hdb, hr | ⟨hr, -⟩⟩ | ⟨s, a, hs, hfree, hview, hp, hdb, hr⟩
  · cases hr
  · obtain rfl := Except.ok.inj hr
    exact hI.same hg rfl hdb ⟨by simpa using ht, by simpa using nodup_missed hnodup, hrot,
      by simpa using hrev⟩
  · obtain rfl := Except.ok.inj hr
    obtain ⟨tok, rfl, -⟩ := refresh_tokens.sel_iff.mp hp
    rw [refresh_tokens.set_inj] at hdb
    have heff : Effect i w.db (w.db.set d (s.hold i (some (refresh_tokens.inj tok.revoke)))) :=
      .hold hs hfree hview
    have htake := ht.hold hs (some (refresh_tokens.inj tok.revoke)) (not_mem_marks hnodup)
    refine hI.take hg rfl hs hfree hview (fun b hb => by cases hb; rfl)
      (fun _ => Option.some_ne_none _) hdb ⟨by simpa [marks] using htake, nodup_taken hnodup,
        hrot.effect heff, fun x hx => ?_⟩
    rcases List.mem_append.mp hx with hx | hx
    · exact hrev x hx
    · obtain rfl := List.mem_singleton.mp hx
      exact ⟨tok.revoke, rfl, rfl⟩

end AccessKept

/-- **Every step keeps the books**, as long as the database does not fail, session ids are new and
a listing shows sessions that were there. -/
theorem AccessKept.step (hI : AccessKept c rows w.db gs) {call : AccessCall}
    {log : List ((o : Op) × o.Reply)} {ph ph' : AccessPhase} {o : Op} {r : o.Reply}
    (hg : gs[i]? = some ⟨call, log, ph⟩) (hans : World.answer c i o ch w = some (w', r))
    (hstep : AccessStep c call ph o r ph') (hworks : ¬ Fault o r)
    (hnew : ∀ new n, o = put_session new → World.outcome ch = some (.done n) → NewId w.db n)
    (hlisted : ∀ u l, o = .list_sessions (some u) → ch = .sessions l →
      ∀ x ∈ l, ∃ d, FiledAt w.db d (.session x)) :
    AccessKept c rows w'.db (gs.set i ⟨call, ⟨o, r⟩ :: log, ph'⟩) := by
  have hf : AccessFacts c rows w.db i call log ph := hI.journal.facts hg
  have hquiet : World.Quiet o → w'.db = w.db := fun ho => World.answer_quiet ho hans
  have hlog : ∀ e ∈ log, e ∈ (⟨o, r⟩ : (o : Op) × o.Reply) :: log := fun e he =>
    List.mem_cons_of_mem _ he
  cases hstep with
  | fault h => exact absurd h hworks
  | lost => exact hf.elim
  | @read _ q rows' hq =>
      obtain ⟨rfl, -⟩ := World.answer_select hans
      rcases entry_cases c call rows' with hentry | ⟨y, hentry⟩
      · exact hI.same hg rfl rfl (by rw [hentry]; exact hf)
      · exact hI.same hg rfl rfl (by rw [hentry]; exact ⟨hf, (entry_entered hentry).1⟩)
  | clock => exact hI.same hg rfl (hquiet trivial) ⟨hf.1, logged_into_mono hlog hf.2⟩
  | log_in hsub =>
      exact hI.put_session_step hg hans (fun n => hnew _ n rfl) hf.1 fun _ ⟨d, x, ht, hx⟩ =>
        ⟨⟨d, x, ht, hx.trans hsub⟩, logged_into_mono hlog hf.2⟩
  | log_in_refused | put_refused => exact hI.refused_step hg hans hf.1
  | enter | issue =>
      have hdb := World.answer_committed hans
      exact hI.commit hg rfl hdb (Table.Holds.commit _)
  | drop | give_back => exact hI.rollback hg rfl (World.answer_rollback hans) (.rollback _)
  | turn_away | identify | hash_fails | date | hash_reset_fails =>
      exact hI.same hg rfl (hquiet trivial) hf
  | @accept cookie id =>
      exact hI.same hg rfl (hquiet trivial)
        ⟨hf, ⟨cookie, rfl⟩, List.mem_filterMap.mpr ⟨_, List.mem_cons_self, rfl⟩⟩
  | sign | draw | tick =>
      exact hI.same hg rfl (hquiet trivial) ⟨hf.1, hf.2.1, identities_mono hlog hf.2.2⟩
  | sign_fails => exact hI.same hg rfl (hquiet trivial) hf.1
  | put =>
      rcases World.answer_insert hans with ⟨-, e, hr⟩ | ⟨key, -, -, -, hdb, -⟩
      · cases hr
      · exact hI.insert hg rfl rfl (fun hid => by cases hid) hdb
          ⟨⟨_, _, hf.1.insert _, rfl⟩, hf.2.1, identities_mono hlog hf.2.2⟩
  | look =>
      obtain ⟨rfl, -⟩ := World.answer_select hans
      exact hI.same hg rfl rfl hf
  | hash => exact hI.same hg rfl (hquiet trivial) ⟨hf, by simp⟩
  | begin =>
      obtain rfl := World.answer_begin hans
      exact hI.same hg rfl rfl hf
  | scan_resets =>
      exact hI.scan_step hg hans fun _ hnodup => ⟨hf, by simpa using hnodup, by simp⟩
  | spend => exact hI.spend_step hg hans
  | hash_reset => exact hI.same hg rfl (hquiet trivial) ⟨hf.1, hf.2.2⟩
  | @scan_user _ u hash spent is =>
      exact hI.scan_step hg hans fun his hnodup => ⟨by simpa [marks] using hf.1,
        by simpa using hnodup, hf.2, by simp, by simpa [his] using hI.covers_matching i u⟩
  | update hset => exact hI.update_step hset hg hans
  | rotate => exact hI.rotate_step hg hans
  | drop_rotated | drop_halted =>
      exact hI.rollback hg rfl (World.answer_rollback hans) ⟨.rollback _, hf.2.effect .rollback⟩
  | @list _ u hash l =>
      obtain ⟨rfl, ⟨_, hch, hl, hr⟩ | ⟨e, -, hr⟩⟩ := World.answer_list_sessions hans
      · obtain rfl := Except.ok.inj hr
        exact hI.same hg rfl rfl ⟨hf.1, hf.2, fun x hx =>
          ⟨hlisted u l rfl hch x hx, (World.owner_of_lists hl hx).1⟩⟩
      · cases hr
  | scan_session =>
      exact hI.scan_step hg hans fun _ hnodup =>
        ⟨hf.1, by simpa using hnodup, hf.2.1, hf.2.2, by simp⟩
  | take => exact hI.take_step hg hans
  | evict =>
      obtain ⟨-, -, hrot, hwas, -⟩ := hf
      have hdb := World.answer_committed hans
      exact hI.commit hg rfl hdb ⟨.commit _, hrot.effect .commit, fun y hy =>
        (hwas y (List.mem_cons_of_mem _ hy)).effect .commit⟩
  | owner =>
      have hid := (World.answer_retrieve hans).2 _ rfl
      exact hI.same hg rfl (hquiet trivial) ⟨hf.1, hf.2.1, hid, rfl⟩
  | owner_fails => exact hI.same hg rfl (hquiet trivial) ⟨hf.1, hf.2.1⟩
  | renewal_clock => exact hI.same hg rfl (hquiet trivial) hf
  | renew hsub =>
      exact hI.put_session_step hg hans (fun n => hnew _ n rfl) hf.1 fun heff ⟨d, x, ht, hx⟩ =>
        ⟨⟨d, x, ht, hx.trans (hsub.trans hf.2.2.1)⟩, hf.2.1.effect heff, hf.2.2.2⟩
  | renew_refused => exact hI.refused_step hg hans ⟨hf.1, hf.2.1⟩
  | settle =>
      have hdb := World.answer_committed hans
      exact hI.commit hg rfl hdb ⟨.commit _, hf.2.1.effect .commit⟩
  | @scan_tokens _ _ u hash is hph =>
      have hrot : w.db.Holds i [] ∧ Rotates rows w.db i u hash := by
        rcases hph with rfl | rfl
        · exact ⟨hf.1, hf.2.1⟩
        · exact hf
      exact hI.scan_step hg hans fun _ hnodup => ⟨hrot.1, by simpa using hnodup, hrot.2, by simp⟩
  | mark => exact hI.mark_step hg hans
  | finish =>
      have hdb := World.answer_committed hans
      exact hI.commit hg rfl hdb ⟨.commit _, hf.2.2.1.effect .commit⟩

/-- Before any call, with sessions whose ids differ. -/
theorem access_start {rows : List Record} (hrows : DistinctSessions rows) :
    AccessKept c rows (rows.map Slot.loaded) [] := by
  refine ⟨.start fun hr => .loaded hr, ?_⟩
  have hslot : ∀ {d : Nat} {s : Slot Record} {r : Record}, (rows.map Slot.loaded)[d]? = some s →
      s.Bears r → rows[d]? = some r := by
    intro d s r hs hr
    rw [List.getElem?_map] at hs
    obtain ⟨r₀, hr₀, rfl⟩ := Option.map_eq_some_iff.mp hs
    obtain ⟨x, hx⟩ := Slot.bears_iff.mp hr
    rw [Option.some.inj (Slot.carries_of_loaded hx).2]
    exact hr₀
  intro d e s s' r r' id hs hs' hr hr' hid hid'
  exact hrows (hslot hs hr) (hslot hs' hr') hid hid'

end Steps

end Authnz
