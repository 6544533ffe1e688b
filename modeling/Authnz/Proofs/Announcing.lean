/-
Reset requests are stored and announced together.

`request_password_reset` inserts the reset row and the event that carries its token in
one transaction, so whatever fails, and whoever comes in between, the two tables
correspond place by place.  That the token leads back to the right account is the
unique index on `token_hash`: the row a confirmation claims is the row the event was
written with.
-/
import Authnz.Basis.Journal
import Authnz.Model.Sample
import Authnz.Proofs.Passwords

namespace Authnz

open Basis

inductive ResetCall where
  | request (cmd : RequestPasswordResetCmd)
  | confirm (cmd : ConfirmPasswordResetCmd)
  deriving DecidableEq

inductive ResetReply where
  | requested (r : Except AuthError Unit)
  | confirmed (r : Except AuthError Uuid)

def ResetCall.code (c : Crates) : ResetCall → Handler ResetReply
  | .request cmd => do return .requested (← (UserService.request_password_reset c cmd).run)
  | .confirm cmd => do return .confirmed (← (UserService.confirm_password_reset c cmd).run)

/-- Any number of requests and confirmations at once. -/
abbrev resetting (c : Crates) : System Op Op.Reply Choice World ResetCall Expiry ResetReply :=
  service c (ResetCall.code c)

abbrev ResetConfig : Type := Config Op Op.Reply World ResetCall ResetReply

/-! ### The calls, in phases -/

/-- The reset row a request for `user_id` inserts. -/
def new_reset (user_id : Uuid) (token_hash : String) (expires_at : Time) (id : Uuid) : Record :=
  .password_reset { id, user_id, token_hash, expires_at, used := some false }

inductive ResetPhase where
  | start
  | bad
  | closed
  | looked (rows : List Record)
  /-- The request has found `u` and drawn a token. -/
  | drawn (u : User) (raw : String)
  | timed (u : User) (raw : String) (now : Time)
  | stored (u : User) (raw : String) (now : Time) (row : Record)
  | pushed (u : User) (raw : String) (now : Time) (row event : Record)
  | announced (u : User) (raw : String) (now : Time) (row event : Record)
  /-- A confirmation. -/
  | confirming (ph : PasswordPhase)

/-- The INSERT of a reset row. -/
def store_reset (c : Crates) (u : User) (raw : String) (now : Time) : Op :=
  .sql (.insert .tx (new_reset u.id (hash_token c raw) (now + minutes 30)) password_resets.clashes)

/-- The INSERT of the event. -/
def push_event (email raw : String) : Op :=
  .sql (.insert .tx (fun _ => .event (.password_reset_requested email raw)) outbox.clashes)

inductive ResetStep (c : Crates) :
    ResetCall → ResetPhase → (o : Op) → o.Reply → ResetPhase → Prop
  | look {cmd : RequestPasswordResetCmd} {rows : List Record} :
      ResetStep c (.request cmd) .start (.sql (.select (users.sel fun u => u.email == cmd.email)))
        (Except.ok rows) (.looked rows)
  | look_fails {cmd : RequestPasswordResetCmd} {e : DbError} :
      ResetStep c (.request cmd) .start (.sql (.select (users.sel fun u => u.email == cmd.email)))
        (Except.error e) .closed
  | draw {cmd : RequestPasswordResetCmd} {rows : List Record} {u : User} {us : List User}
      {bytes : List UInt8} (hrows : rows.filterMap users.prj = u :: us) :
      ResetStep c (.request cmd) (.looked rows) (.fill 32) bytes (.drawn u (base64url bytes))
  | clock {cmd : RequestPasswordResetCmd} {u : User} {raw : String} {now : Time} :
      ResetStep c (.request cmd) (.drawn u raw) .now now (.timed u raw now)
  | begin {cmd : RequestPasswordResetCmd} {u : User} {raw : String} {now : Time} :
      ResetStep c (.request cmd) (.timed u raw now) (.sql .begin) (Except.ok ()) (.timed u raw now)
  | begin_fails {cmd : RequestPasswordResetCmd} {u : User} {raw : String} {now : Time}
      {e : DbError} :
      ResetStep c (.request cmd) (.timed u raw now) (.sql .begin) (Except.error e) .closed
  | store {cmd : RequestPasswordResetCmd} {u : User} {raw : String} {now : Time} {row : Record} :
      ResetStep c (.request cmd) (.timed u raw now) (store_reset c u raw now) (Except.ok row)
        (.stored u raw now row)
  | store_fails {cmd : RequestPasswordResetCmd} {u : User} {raw : String} {now : Time}
      {e : DbError} :
      ResetStep c (.request cmd) (.timed u raw now) (store_reset c u raw now) (Except.error e) .bad
  | push {cmd : RequestPasswordResetCmd} {u : User} {raw : String} {now : Time}
      {row event : Record} :
      ResetStep c (.request cmd) (.stored u raw now row) (push_event cmd.email raw)
        (Except.ok event) (.pushed u raw now row event)
  | push_fails {cmd : RequestPasswordResetCmd} {u : User} {raw : String} {now : Time}
      {row : Record} {e : DbError} :
      ResetStep c (.request cmd) (.stored u raw now row) (push_event cmd.email raw)
        (Except.error e) .bad
  | commit {cmd : RequestPasswordResetCmd} {u : User} {raw : String} {now : Time}
      {row event : Record} :
      ResetStep c (.request cmd) (.pushed u raw now row event) (.sql .commit) (Except.ok ())
        (.announced u raw now row event)
  | commit_fails {cmd : RequestPasswordResetCmd} {u : User} {raw : String} {now : Time}
      {row event : Record} {e : DbError} :
      ResetStep c (.request cmd) (.pushed u raw now row event) (.sql .commit) (Except.error e)
        .closed
  | unstored {cmd : RequestPasswordResetCmd} {u : User} {raw : String} {now : Time} {row : Record} :
      ResetStep c (.request cmd) (.stored u raw now row) (.sql .rollback) () .closed
  | unpushed {cmd : RequestPasswordResetCmd} {u : User} {raw : String} {now : Time}
      {row event : Record} :
      ResetStep c (.request cmd) (.pushed u raw now row event) (.sql .rollback) () .closed
  | drop {cmd : RequestPasswordResetCmd} :
      ResetStep c (.request cmd) .bad (.sql .rollback) () .closed
  | dropped {cmd : RequestPasswordResetCmd} :
      ResetStep c (.request cmd) .closed (.sql .rollback) () .closed
  | drop_announced {cmd : RequestPasswordResetCmd} {u : User} {raw : String} {now : Time}
      {row event : Record} :
      ResetStep c (.request cmd) (.announced u raw now row event) (.sql .rollback) ()
        (.announced u raw now row event)
  | confirm {cmd : ConfirmPasswordResetCmd} {ph ph' : PasswordPhase} {o : Op} {r : o.Reply}
      (h : PasswordStep c (.reset cmd) ph o r ph') :
      ResetStep c (.confirm cmd) (.confirming ph) o r (.confirming ph')

/-- Resets, as a protocol. -/
abbrev announcing (c : Crates) : Protocol Op Op.Reply ResetCall ResetReply where
  Phase := ResetPhase
  start
    | .request _ => .start
    | .confirm _ => .confirming .start
  Step := ResetStep c
  Final _ ph
    | .requested (.ok _) => (∃ rows, ph = .looked rows ∧ rows.filterMap users.prj = []) ∨
        ∃ u raw now row event, ph = .announced u raw now row event
    | .requested (.error _) => ph = .closed
    | .confirmed _ => ∃ ph', ph = .confirming ph'

theorem ResetStep.part {c : Crates} {call : ResetCall} {ph ph' : ResetPhase} {o : Op} {r : o.Reply}
    (h : ResetStep c call ph o r ph') : World.Part o := by
  cases h with
  | confirm h => exact h.part
  | _ => first
    | exact .quiet trivial
    | exact .sql (by constructor)

theorem announcing_follows (c : Crates) (call : ResetCall) :
    (announcing c).Follows call ((resetting c).code call) := by
  cases call with
  | confirm cmd =>
      change Goes (announcing c) _ ((UserService.confirm_password_reset c cmd).run >>= _) _ _
      refine goes_bind (goes_mono (goes_embed (announcing c) (.confirm cmd) .confirming .confirm
        (confirm_goes c cmd)) ?_)
      intro ph r hpost
      obtain ⟨ph', hph, _⟩ := hpost
      exact goes_ret ⟨ph', hph⟩
  | request cmd =>
      change Goes (announcing c) _ ((UserService.request_password_reset c cmd).run >>= _) _ _
      refine goes_run ?_
      unfold UserService.request_password_reset
      refine goesE_bind (goesE_select (fun rows => .look) (fun e => .look_fails) (fun rows => ?_)
        fun e => rfl)
      cases hrows : rows.filterMap users.prj with
      | nil => exact .inl ⟨rows, rfl, hrows⟩
      | cons u us =>
          refine goesE_bind (goesE_lift (goes_bind (goes_ask ?_)))
          intro bytes
          refine ⟨_, .draw hrows, ?_⟩
          refine goes_ret (goesE_bind (goesE_lift (goes_ask ?_)))
          intro now
          refine ⟨_, .clock, ?_⟩
          refine goesE_bind (goesE_attempt (goes_ask ?_))
          intro r
          cases r with
          | error e => exact ⟨_, .begin_fails, rfl⟩
          | ok _ =>
              refine ⟨_, .begin, ?_⟩
              refine goesE_in_tx (goesE_bind (goesE_insert_tx (fun row => .store)
                (fun e => .store_fails) (fun row a _ => ?_) (fun row _ => ⟨_, .unstored, rfl⟩)
                fun e => ⟨_, .drop, rfl⟩))
              refine goesE_bind (goesE_insert_tx (fun event => .push) (fun e => .push_fails)
                (fun event b _ => ?_) (fun event _ => ⟨_, .unpushed, rfl⟩) fun e => ⟨_, .drop, rfl⟩)
              refine goesE_attempt (goes_ask ?_)
              intro r
              cases r with
              | error e => exact ⟨_, .commit_fails, _, .dropped, rfl⟩
              | ok _ => exact ⟨_, .commit, _, .drop_announced, .inr ⟨_, _, _, _, _, rfl⟩⟩

/-! ### The rows through a run -/

abbrev ResetGhost (c : Crates) : Type := (announcing c).Ghost

/-- What no request and no confirmation changes about a row. -/
def lasting : Record → Record
  | .user u => .user { u with password_hash := "", updated_at := 0 }
  | .password_reset p => .password_reset { p with used := none }
  | r => r

/-- What the unique index of `password_resets` is about. -/
def reset_hash : Record → Option String
  | .password_reset p => some p.token_hash
  | _ => none

def ResetCall.IsRequest : ResetCall → Prop
  | .request _ => True
  | .confirm _ => False

def ResetCall.IsConfirm : ResetCall → Prop
  | .request _ => False
  | .confirm _ => True

/-- The version was made by a call of this kind. -/
def MadeBy {c : Crates} (gs : List (ResetGhost c)) (kind : ResetCall → Prop) (w : Option Nat) :
    Prop := ∃ k g, w = some k ∧ gs[k]? = some g ∧ kind g.call

/-- Who makes the first version of row `d`: it is from the start, or a request inserts it. -/
def FirstMade {c : Crates} (n : Nat) (gs : List (ResetGhost c)) (d : Nat) (w : Option Nat) : Prop :=
  if d < n then w = none else MadeBy gs ResetCall.IsRequest w

/-- What row `d` looks like in the middle of a run. -/
structure ResetAt {c : Crates} (rows : List Record) (gs : List (ResetGhost c)) (d : Nat)
    (s : Slot Record) : Prop where
  same : ∃ a, s.Is lasting a ∧ ∀ r, rows[d]? = some r → lasting r = a
  grows : s.Grows (FirstMade rows.length gs d) (MadeBy gs ResetCall.IsConfirm)
  there : d < rows.length → s.versions ≠ []

/-- The user with this address, as the rows have them from the start. -/
def Addressee (rows : List Record) (email : String) (u : User) : Prop :=
  ∃ (d : Nat) (v : User), rows[d]? = some (.user v) ∧ v.id = u.id ∧ v.email = email

/-- The row is a reset for the user, under the hash of the token. -/
def ResetFor (c : Crates) (u : User) (raw : String) (row : Record) : Prop :=
  ∃ p, row = .password_reset p ∧ p.user_id = u.id ∧ p.token_hash = hash_token c raw

/-- A confirmation has claimed the reset at this place, under this hash. -/
def ClaimedUnder (hash : String) (db : Table Record) (x : Nat × Record) : Prop :=
  ∃ p, x.2 = .password_reset p ∧ p.token_hash = hash ∧
    ∃ s y r, db[x.1]? = some s ∧ y ∈ s.versions ∧ y.row = some r ∧ lasting r = lasting x.2

/-- What a confirmation's phase says of the table. -/
def ConfirmFacts (hash : String) (db : Table Record) (k : Nat) : PasswordPhase → Prop
  | .start | .closed | .timed _ => Tally db k (some []) []
  | .bad => Tally db k none []
  | .claiming _ is acc => Tally db k (some (marks acc)) [] ∧ (acc.map Prod.fst ++ is).Nodup ∧
      ∀ x ∈ acc, ClaimedUnder hash db x
  | .rehashed _ acc reset _ => Tally db k (some (marks acc)) [] ∧ (∀ x ∈ acc, ClaimedUnder hash db x) ∧
      ∃ d, (d, .password_reset reset) ∈ acc
  | .applying _ acc reset _ is acc₂ => Tally db k (some (marks acc ++ marks acc₂)) [] ∧
      (∀ x ∈ acc, ClaimedUnder hash db x) ∧ (∃ d, (d, .password_reset reset) ∈ acc) ∧
      (acc₂.map Prod.fst ++ is).Nodup ∧ ∀ x ∈ acc₂, ∃ u, x.2 = .user u ∧ u.id = reset.user_id
  | .applied _ acc reset _ acc₂ => Tally db k (some []) (marks acc ++ marks acc₂) ∧
      (∀ x ∈ acc, ClaimedUnder hash db x) ∧ (∃ d, (d, .password_reset reset) ∈ acc) ∧
      ∀ x ∈ acc₂, ∃ u, x.2 = .user u ∧ u.id = reset.user_id
  | .looked _ | .hashed _ _ | .writing _ _ _ _ | .changed _ _ _ => False

/-- What a call's phase says of the table. -/
def ResetFacts (c : Crates) (rows : List Record) (db : Table Record) (k : Nat) :
    ResetCall → ResetPhase → Prop
  | .request _, .start | .request _, .closed => Tally db k (some []) []
  | .request _, .bad => Tally db k none []
  | .request cmd, .looked out => Tally db k (some []) [] ∧
      ∀ u, Record.user u ∈ out → Addressee rows cmd.email u
  | .request cmd, .drawn u _ | .request cmd, .timed u _ _ => Tally db k (some []) [] ∧
      Addressee rows cmd.email u
  | .request cmd, .stored u raw _ row => Addressee rows cmd.email u ∧ ResetFor c u raw row ∧
      ∃ a, Tally db k (some [(a, some row)]) []
  | .request cmd, .pushed u raw _ row event => Addressee rows cmd.email u ∧
      ResetFor c u raw row ∧ event = .event (.password_reset_requested cmd.email raw) ∧
      ∃ a b, Tally db k (some [(a, some row), (b, some event)]) []
  | .request cmd, .announced u raw _ row event => Addressee rows cmd.email u ∧
      ResetFor c u raw row ∧ event = .event (.password_reset_requested cmd.email raw) ∧
      ∃ a b, Tally db k (some []) [(a, some row), (b, some event)]
  | .confirm cmd, .confirming ph => ConfirmFacts (hash_token c cmd.token) db k ph
  | _, _ => False

/-- **The invariant of the resets.** -/
structure ResetsKept (c : Crates) (rows : List Record) (db : Table Record)
    (gs : List (ResetGhost c)) : Prop where
  journal : Journal (ResetAt rows)
    (fun db k (g : ResetGhost c) => ResetFacts c rows db k g.call g.phase) rows.length db gs
  keyed : db.Keyed reset_hash

section Rows

variable {c : Crates} {rows : List Record} {db db' : Table Record} {gs gs' : List (ResetGhost c)}
  {d k me : Nat} {s : Slot Record} {kind : ResetCall → Prop} {w : Option Nat}

theorem reset_hash_of_lasting {r r' : Record} (h : lasting r = lasting r') :
    reset_hash r = reset_hash r' := by
  cases r <;> cases r' <;> simp_all [lasting, reset_hash]

theorem reset_of_hash {r : Record} {h : String} (hr : reset_hash r = some h) :
    ∃ p, r = .password_reset p ∧ p.token_hash = h := by
  cases r <;> simp_all [reset_hash]

theorem user_of_lasting {r : Record} {u : User} (h : lasting r = lasting (.user u)) :
    ∃ v, r = .user v ∧ v.id = u.id ∧ v.email = u.email := by
  cases r <;> simp_all [lasting]

theorem reset_of_lasting {r : Record} {p : PasswordReset}
    (h : lasting r = lasting (.password_reset p)) :
    ∃ q, r = .password_reset q ∧ q.user_id = p.user_id ∧ q.token_hash = p.token_hash := by
  cases r <;> simp_all [lasting]

theorem event_of_lasting {r : Record} {e : Event} (h : lasting r = lasting (.event e)) :
    r = .event e := by
  cases r <;> simp_all [lasting]

theorem MadeBy.same (h : MadeBy gs kind w) (hcalls : SameCalls gs gs') : MadeBy gs' kind w := by
  obtain ⟨k, g, hw, hg, hkind⟩ := h
  obtain ⟨g', hg', hcall⟩ := hcalls hg
  exact ⟨k, g', hw, hg', by rw [hcall]; exact hkind⟩

theorem MadeBy.not_both (h : MadeBy gs ResetCall.IsRequest w)
    (h' : MadeBy gs ResetCall.IsConfirm w) : False := by
  obtain ⟨k, g, rfl, hg, hkind⟩ := h
  obtain ⟨k', g', hw, hg', hkind'⟩ := h'
  obtain rfl := Option.some.inj hw
  obtain rfl := Option.some.inj (hg.symm.trans hg')
  cases hcall : g.call with
  | request cmd =>
      rw [hcall] at hkind'
      exact hkind'
  | confirm cmd =>
      rw [hcall] at hkind
      exact hkind

namespace ResetAt

theorem commit (h : ResetAt rows gs d s) : ResetAt rows gs d (s.commit me) := by
  obtain ⟨a, ha, hrow⟩ := h.same
  refine ⟨⟨a, ha.commit, hrow⟩, h.grows.commit, fun hd => ?_⟩
  obtain ⟨pre, hpre⟩ := Slot.Turn.commit_suffix me s
  rw [hpre]
  exact fun hnil => h.there hd (List.append_eq_nil_iff.mp hnil).2

theorem rollback (h : ResetAt rows gs d s) : ResetAt rows gs d (s.rollback me) := by
  obtain ⟨a, ha, hrow⟩ := h.same
  exact ⟨⟨a, ha.rollback, hrow⟩, h.grows.rollback,
    fun hd => by rw [Slot.versions_rollback]; exact h.there hd⟩

theorem calls (h : ResetAt rows gs d s) (hcalls : SameCalls gs gs') : ResetAt rows gs' d s := by
  refine ⟨h.same, h.grows.mono (fun w hw => ?_) (fun w hw => hw.same hcalls), h.there⟩
  unfold FirstMade at hw ⊢
  by_cases hd : d < rows.length
  · rw [if_pos hd] at hw ⊢
    exact hw
  · rw [if_neg hd] at hw ⊢
    exact hw.same hcalls

/-- A confirmation takes a row and leaves it the same but for what may change. -/
theorem hold (h : ResetAt rows gs d s) {old new : Record} (hview : s.view me = some old)
    (hlast : lasting new = lasting old) (hv : s.versions ≠ [])
    (hme : MadeBy gs ResetCall.IsConfirm (some me)) :
    ResetAt rows gs d (s.hold me (some new)) := by
  obtain ⟨a, ha, hrow⟩ := h.same
  exact ⟨⟨a, ha.hold (hlast.trans (ha.of_bears (Slot.bears_of_view hview))), hrow⟩,
    h.grows.hold hv hme, h.there⟩

end ResetAt

theorem ClaimedUnder.effect {hash : String} {x : Nat × Record} (h : ClaimedUnder hash db x)
    (he : Effect me db db') : ClaimedUnder hash db' x := by
  obtain ⟨p, hx, hhash, s, y, r, hs, hy, hr, hlast⟩ := h
  obtain ⟨s', hs', hy'⟩ := he.version_stays hs hy
  exact ⟨p, hx, hhash, s', y, r, hs', hy', hr, hlast⟩

theorem ConfirmFacts.other {hash : String} {ph : PasswordPhase} (h : ConfirmFacts hash db k ph)
    (he : Effect me db db') (hk : k ≠ me) : ConfirmFacts hash db' k ph := by
  cases ph with
  | start | closed | timed | bad => exact Tally.other h he hk
  | looked | hashed | writing | changed => exact h
  | claiming now is acc => exact ⟨h.1.other he hk, h.2.1, fun x hx => (h.2.2 x hx).effect he⟩
  | rehashed now acc reset new =>
      exact ⟨h.1.other he hk, fun x hx => (h.2.1 x hx).effect he, h.2.2⟩
  | applying now acc reset new is acc₂ =>
      exact ⟨h.1.other he hk, fun x hx => (h.2.1 x hx).effect he, h.2.2⟩
  | applied now acc reset new acc₂ =>
      exact ⟨h.1.other he hk, fun x hx => (h.2.1 x hx).effect he, h.2.2⟩

theorem ResetFacts.other {call : ResetCall} {ph : ResetPhase} (h : ResetFacts c rows db k call ph)
    (he : Effect me db db') (hk : k ≠ me) : ResetFacts c rows db' k call ph := by
  cases call with
  | confirm cmd =>
      cases ph with
      | confirming ph => exact ConfirmFacts.other h he hk
      | _ => exact h
  | request cmd =>
      cases ph with
      | start | closed | bad => exact Tally.other h he hk
      | looked | drawn | timed => exact ⟨h.1.other he hk, h.2⟩
      | stored u raw now row =>
          obtain ⟨hu, hrow, a, ha⟩ := h
          exact ⟨hu, hrow, a, ha.other he hk⟩
      | pushed u raw now row event =>
          obtain ⟨hu, hrow, hev, a, b, hab⟩ := h
          exact ⟨hu, hrow, hev, a, b, hab.other he hk⟩
      | announced u raw now row event =>
          obtain ⟨hu, hrow, hev, a, b, hab⟩ := h
          exact ⟨hu, hrow, hev, a, b, hab.other he hk⟩
      | confirming ph => exact h

theorem resets_stable (c : Crates) (rows : List Record) : Stable (ResetAt rows)
    (fun db k (g : ResetGhost c) => ResetFacts c rows db k g.call g.phase) where
  commit h := h.commit
  rollback h := h.rollback
  calls h hcalls := h.calls hcalls
  facts h he hk := h.other he hk

end Rows

/-! ### What the rows tell -/

section Kept

variable {c : Crates} {rows : List Record} {db : Table Record} {gs : List (ResetGhost c)} {d k : Nat}
  {s : Slot Record}

/-- A request has committed nothing, or its reset and its event. -/
theorem ResetFacts.request_cases {cmd : RequestPasswordResetCmd} {ph : ResetPhase}
    (h : ResetFacts c rows db k (.request cmd) ph) :
    db.WroteOnly k [] ∨ ∃ u raw now row a b, Addressee rows cmd.email u ∧ ResetFor c u raw row ∧
      ph = .announced u raw now row (.event (.password_reset_requested cmd.email raw)) ∧
      db.WroteOnly k
        [(a, some row), (b, some (.event (.password_reset_requested cmd.email raw)))] := by
  cases ph with
  | start | closed | bad => exact .inl (Tally.written h)
  | looked | drawn | timed => exact .inl h.1.written
  | stored u raw now row =>
      obtain ⟨-, -, a, ht⟩ := h
      exact .inl ht.written
  | pushed u raw now row event =>
      obtain ⟨-, -, -, a, b, ht⟩ := h
      exact .inl ht.written
  | announced u raw now row event =>
      obtain ⟨hu, hrow, rfl, a, b, ht⟩ := h
      exact .inr ⟨u, raw, now, row, a, b, hu, hrow, rfl, ht.written⟩
  | confirming ph => exact h.elim

/-- A confirmation has committed nothing, or the reset it has used and its owner's new hash. -/
theorem ConfirmFacts.confirm_cases {hash : String} {ph : PasswordPhase}
    (h : ConfirmFacts hash db k ph) :
    db.WroteOnly k [] ∨ ∃ acc acc₂ reset, (∀ x ∈ acc, ClaimedUnder hash db x) ∧
      (∃ d, (d, .password_reset reset) ∈ acc) ∧
      (∀ x ∈ acc₂, ∃ u, x.2 = .user u ∧ u.id = reset.user_id) ∧
      db.WroteOnly k (marks acc ++ marks acc₂) := by
  cases ph with
  | start | closed | timed | bad => exact .inl (Tally.written h)
  | claiming | rehashed | applying => exact .inl h.1.written
  | applied now acc reset new acc₂ =>
      exact .inr ⟨acc, acc₂, reset, h.2.1, h.2.2.1, h.2.2.2, h.1.written⟩
  | looked | hashed | writing | changed => exact h.elim

/-- Call `k` has inserted a reset and the event that announces it. -/
structure Inserted (c : Crates) (rows : List Record) (db : Table Record) (gs : List (ResetGhost c))
    (k : Nat) (cmd : RequestPasswordResetCmd) (u : User) (raw : String) (row : Record)
    (a b : Nat) : Prop where
  call : ∃ log now event, gs[k]? = some ⟨.request cmd, log, .announced u raw now row event⟩
  owner : Addressee rows cmd.email u
  reset : ResetFor c u raw row
  wrote : db.WroteOnly k
    [(a, some row), (b, some (.event (.password_reset_requested cmd.email raw)))]

/-- A row that was not there from the start was inserted by a request, with its counterpart. -/
theorem ResetsKept.inserted (hI : ResetsKept c rows db gs) (hs : db[d]? = some s)
    (hd : rows.length ≤ d) (hv : s.versions ≠ []) :
    ∃ k cmd u raw row a b, Inserted c rows db gs k cmd u raw row a b ∧ (d = a ∨ d = b) := by
  have hat := hI.journal.slots hs
  obtain ⟨pre, x, hx⟩ := Slot.exists_first hv
  have hfirst := hat.grows.first hx
  unfold FirstMade at hfirst
  rw [if_neg (by omega)] at hfirst
  obtain ⟨k, g, hw, hg, hkind⟩ := hfirst
  obtain ⟨w, v⟩ := x
  obtain rfl : w = some k := hw
  have hmem : ∃ s, db[d]? = some s ∧ ⟨some k, v⟩ ∈ s.versions := ⟨s, hs, by rw [hx]; simp⟩
  obtain ⟨call, log, ph⟩ := g
  cases call with
  | confirm cmd => exact hkind.elim
  | request cmd =>
      have hf : ResetFacts c rows db k (.request cmd) ph := hI.journal.facts hg
      rcases hf.request_cases with hnone | ⟨u, raw, now, row, a, b, hu, hrow, rfl, hwrote⟩
      · exact absurd ((hnone d v).mp hmem) List.not_mem_nil
      · refine ⟨k, cmd, u, raw, row, a, b, ⟨⟨log, now, _, hg⟩, hu, hrow, hwrote⟩, ?_⟩
        rcases List.mem_cons.mp ((hwrote d v).mp hmem) with heq | hm
        · exact .inl (Prod.mk.inj heq).1
        · exact .inr (Prod.mk.inj (List.mem_singleton.mp hm)).1

/-- Where the request put its rows they are still, but for what may change. -/
theorem ResetsKept.still (hI : ResetsKept c rows db gs) {v : Option Record} {r : Record}
    (hv : ∃ s, db[d]? = some s ∧ ⟨some k, v⟩ ∈ s.versions) (hr : v = some r) :
    ∃ s r', db[d]? = some s ∧ s.current = some r' ∧ lasting r' = lasting r ∧ s.Bears r := by
  obtain ⟨s, hs, hmem⟩ := hv
  subst hr
  obtain ⟨a, ha, -⟩ := (hI.journal.slots hs).same
  obtain ⟨r', hcur, hr'⟩ := ha.current (List.ne_nil_of_mem hmem)
  have hbears : s.Bears r := .inl ⟨_, hmem, rfl⟩
  exact ⟨s, r', hs, hcur, hr'.trans (ha.of_bears hbears).symm, hbears⟩

theorem Inserted.rows_at {cmd : RequestPasswordResetCmd} {u : User} {raw : String} {row : Record}
    {a b : Nat} (hI : ResetsKept c rows db gs) (h : Inserted c rows db gs k cmd u raw row a b) :
    (∃ s r, db[a]? = some s ∧ s.current = some r ∧ lasting r = lasting row ∧ s.Bears row) ∧
      ∃ s, db[b]? = some s ∧
        s.current = some (.event (.password_reset_requested cmd.email raw)) := by
  constructor
  · exact hI.still ((h.wrote a (some row)).mpr List.mem_cons_self) rfl
  · obtain ⟨s, r, hs, hcur, hlast, -⟩ := hI.still ((h.wrote b _).mpr
      (List.mem_cons_of_mem _ List.mem_cons_self)) rfl
    rw [event_of_lasting hlast] at hcur
    exact ⟨s, hs, hcur⟩

/-- A committed row of a user is that user's from the start. -/
theorem ResetsKept.user_row (hI : ResetsKept c rows db gs) (hs : db[d]? = some s) {u : User}
    (hu : s.Bears (.user u)) (hv : s.versions ≠ []) :
    ∃ v, rows[d]? = some (.user v) ∧ v.id = u.id ∧ v.email = u.email := by
  obtain ⟨i, hi, hrow⟩ := (hI.journal.slots hs).same
  by_cases hd : d < rows.length
  · have hr : rows[d]? = some rows[d] := List.getElem?_eq_getElem hd
    obtain ⟨v, hv, hid, hemail⟩ := user_of_lasting ((hrow _ hr).trans (hi.of_bears hu).symm)
    exact ⟨v, by rw [hr, hv], hid, hemail⟩
  · obtain ⟨k, cmd, u', raw, row, a, b, hins, hat⟩ := hI.inserted hs (by omega) hv
    obtain ⟨p, hp, -⟩ := hins.reset
    obtain ⟨⟨s₁, r₁, hs₁, -, -, hbears⟩, s₂, hs₂, hcur₂⟩ := hins.rows_at hI
    rcases hat with rfl | rfl
    · obtain rfl := Option.some.inj (hs.symm.trans hs₁)
      have hne := (hi.of_bears hu).trans (hi.of_bears hbears).symm
      rw [hp] at hne
      cases hne
    · obtain rfl := Option.some.inj (hs.symm.trans hs₂)
      have hne := (hi.of_bears hu).trans (hi.of_bears (Slot.bears_of_current hcur₂)).symm
      cases hne

end Kept

/-! ### Every step keeps it -/

section Steps

variable {c : Crates} {rows : List Record} {gs : List (ResetGhost c)} {w w' : World} {i : Nat}
  {ch : Choice} {g g' : ResetGhost c}

namespace ResetsKept

theorem same (hI : ResetsKept c rows w.db gs) (hg : gs[i]? = some g) (hcall : g'.call = g.call)
    (hdb : w'.db = w.db) (hf : ResetFacts c rows w.db i g'.call g'.phase) :
    ResetsKept c rows w'.db (gs.set i g') := by
  rw [hdb]
  exact ⟨hI.journal.same (resets_stable c rows) hg hcall hf, hI.keyed⟩

theorem commit (hI : ResetsKept c rows w.db gs) (hg : gs[i]? = some g) (hcall : g'.call = g.call)
    (hdb : w'.db = w.db.map (Slot.commit i))
    (hf : ResetFacts c rows (w.db.map (Slot.commit i)) i g'.call g'.phase) :
    ResetsKept c rows w'.db (gs.set i g') := by
  rw [hdb]
  exact ⟨hI.journal.commit (resets_stable c rows) hg hcall hf, hI.keyed.commit i⟩

theorem rollback (hI : ResetsKept c rows w.db gs) (hg : gs[i]? = some g) (hcall : g'.call = g.call)
    (hdb : w'.db = w.db.map (Slot.rollback i))
    (hf : ResetFacts c rows (w.db.map (Slot.rollback i)) i g'.call g'.phase) :
    ResetsKept c rows w'.db (gs.set i g') := by
  rw [hdb]
  exact ⟨hI.journal.rollback (resets_stable c rows) hg hcall hf, hI.keyed.rollback i⟩

/-- A row a call can take and does not hold is committed. -/
theorem committed {db : Table Record} {H : List (Nat × Option Record)}
    {wrote : List (Nat × Option Record)} (ht : Tally db i (some H) wrote) {d : Nat}
    {s : Slot Record} {old : Record} (hs : db[d]? = some s) (hview : s.view i = some old)
    (hd : ∀ v, (d, v) ∉ H) : s.current = some old ∧ s.versions ≠ [] := by
  rw [ht.view hs hd] at hview
  refine ⟨hview, fun hnil => ?_⟩
  rw [Slot.current, hnil] at hview
  cases hview

/-- A confirmation takes a row. -/
theorem take (hI : ResetsKept c rows w.db gs) (hg : gs[i]? = some g) (hcall : g'.call = g.call)
    (hkind : g.call.IsConfirm) {H : List (Nat × Option Record)} {wrote : List (Nat × Option Record)}
    (ht : Tally w.db i (some H) wrote) {d : Nat} {s : Slot Record} {old new : Record}
    (hs : w.db[d]? = some s) (hfree : s.free i = true) (hview : s.view i = some old)
    (hd : ∀ v, (d, v) ∉ H) (hlast : lasting new = lasting old)
    (hdb : w'.db = w.db.set d (s.hold i (some new)))
    (hf : ResetFacts c rows (w.db.set d (s.hold i (some new))) i g'.call g'.phase) :
    ResetsKept c rows w'.db (gs.set i g') := by
  rw [hdb]
  refine ⟨hI.journal.take (resets_stable c rows) hg hcall hs hfree hview (fun hat => ?_) hf,
    hI.keyed.take hs hview fun hnew => Option.some.inj hnew ▸ reset_hash_of_lasting hlast⟩
  exact hat.hold hview hlast (committed ht hs hview hd).2 ⟨i, g, rfl, hg, hkind⟩

/-- A request inserts a row. -/
theorem insert (hI : ResetsKept c rows w.db gs) (hg : gs[i]? = some g) (hcall : g'.call = g.call)
    (hkind : g.call.IsRequest) {r : Record}
    (hkey : ∀ {h : String}, reset_hash r = some h → ∀ {d : Nat} {s : Slot Record} {r' : Record},
      w.db[d]? = some s → s.Bears r' → reset_hash r' ≠ some h)
    (hdb : w'.db = w.db ++ [Slot.fresh i r])
    (hf : ResetFacts c rows (w.db ++ [Slot.fresh i r]) i g'.call g'.phase) :
    ResetsKept c rows w'.db (gs.set i g') := by
  have hlen := hI.journal.length
  rw [hdb]
  refine ⟨hI.journal.insert (resets_stable c rows) hg hcall ⟨⟨_, .fresh i r, fun r' hr' => ?_⟩,
    .fresh ?_ r, fun hd => absurd hd (by omega)⟩ hf, hI.keyed.insert hkey⟩
  · have hlt := (List.getElem?_eq_some_iff.mp hr').1
    omega
  · unfold FirstMade
    rw [if_neg (by omega)]
    exact ⟨i, g, rfl, hg, hkind⟩

/-- The users a request finds. -/
theorem finds (hI : ResetsKept c rows w.db gs) {wrote : List (Nat × Option Record)} {email : String}
    (ht : Tally w.db i (some []) wrote) {u : User}
    (hu : Record.user u ∈ (w.db.filterMap (Slot.view i)).filter
      (users.sel fun u => u.email == email)) : Addressee rows email u := by
  obtain ⟨hview, hsel⟩ := List.mem_filter.mp hu
  obtain ⟨s, hs, hv⟩ := List.mem_filterMap.mp hview
  obtain ⟨d, hd⟩ := List.mem_iff_getElem?.mp hs
  obtain ⟨-, hne⟩ := committed ht hd hv (by simp)
  obtain ⟨v, hrow, hid, hemail⟩ := hI.user_row hd (Slot.bears_of_view hv) hne
  exact ⟨d, v, hrow, hid, hemail.trans (beq_iff_eq.mp ((users.sel_inj _ u).symm.trans hsel))⟩

/-- The hash of a reset that could be inserted is new. -/
theorem new_hash (hI : ResetsKept c rows w.db gs) {p : PasswordReset}
    (hdup : SqlOp.duplicate i (password_resets.clashes (.password_reset p)) w.db = false)
    (hcon : SqlOp.contended i (password_resets.clashes (.password_reset p)) w.db = false)
    {h : String} (hh : reset_hash (.password_reset p) = some h) {d : Nat} {s : Slot Record}
    {r : Record} (hs : w.db[d]? = some s) (hr : s.Bears r) : reset_hash r ≠ some h := by
  obtain rfl := Option.some.inj hh
  have his : ∀ {d : Nat} {s : Slot Record}, w.db[d]? = some s → ∃ a, s.Is lasting a := by
    intro d s hs
    obtain ⟨a, ha, -⟩ := (hI.journal.slots hs).same
    exact ⟨a, ha⟩
  have hno := no_clash_of_insert his (fun {r r'} hlast => by
    cases r <;> cases r' <;> simp_all [lasting, Relation.clashes, password_resets]) hdup hcon hs hr
  intro heq
  cases r with
  | password_reset q =>
      have hsame : q.token_hash = p.token_hash := Option.some.inj heq
      simp [Relation.clashes, password_resets, hsame] at hno
  | _ => cases heq

section Confirming

variable {cmd : ConfirmPasswordResetCmd} {log log' : List ((o : Op) × o.Reply)}

/-- The `UPDATE` of the resets reaches a row. -/
theorem claim_step (hI : ResetsKept c rows w.db gs) {now : Time} {d : Nat} {is : List Nat}
    {acc : List (Nat × Record)} {out : List Record}
    (hg : gs[i]? = some ⟨.confirm cmd, log, .confirming (.claiming now (d :: is) acc)⟩)
    (hans : World.answer c i (.sql (.visit d
      (password_resets.sel (Redeemable (hash_token c cmd.token) now))
      (password_resets.set (·.spent)))) ch w = some (w', Except.ok out)) :
    ResetsKept c rows w'.db (gs.set i
      ⟨.confirm cmd, log', .confirming (.claiming now is (acc ++ out.map fun x => (d, x)))⟩) := by
  have hf : ConfirmFacts (hash_token c cmd.token) w.db i (.claiming now (d :: is) acc) :=
    hI.journal.facts hg
  obtain ⟨ht, hnodup, hclaimed⟩ := hf
  rcases World.answer_visit hans with ⟨hdb, hr | ⟨hr, -⟩⟩ |
    ⟨s, a, hs, hfree, hview, hp, hdb, hr⟩
  · cases hr
  · obtain rfl := Except.ok.inj hr
    refine hI.same hg rfl hdb ⟨?_, ?_, ?_⟩
    · simpa using ht
    · simpa using nodup_missed hnodup
    · simpa using hclaimed
  · obtain rfl := Except.ok.inj hr
    obtain ⟨p, rfl, hq⟩ := password_resets.sel_iff.mp hp
    have hset : password_resets.set (·.spent) (.password_reset p) =
        some (.password_reset p.spent) := rfl
    simp only [show password_resets.inj p = Record.password_reset p from rfl, hset,
      Option.getD_some, List.map_cons, List.map_nil] at hdb hview ⊢
    obtain ⟨hcur, hne⟩ := committed ht hs hview (not_mem_marks hnodup)
    have heff : Effect i w.db (w.db.set d (s.hold i (some (.password_reset p.spent)))) :=
      .hold hs hfree hview
    have hlast : lasting (.password_reset p.spent) = lasting (.password_reset p) := rfl
    refine hI.take hg rfl trivial ht hs hfree hview (not_mem_marks hnodup) hlast hdb ⟨?_, ?_, ?_⟩
    · have htake := ht.take (v := some (.password_reset p.spent)) hs
        (not_mem_marks hnodup)
      simpa [marks] using htake
    · exact nodup_taken hnodup
    · intro x hx
      rcases List.mem_append.mp hx with hx | hx
      · exact (hclaimed x hx).effect heff
      · obtain rfl := List.mem_singleton.mp hx
        obtain ⟨y, hy, hrow⟩ := Option.bind_eq_some_iff.mp hcur
        have hhash : p.token_hash = hash_token c cmd.token := redeemable_hash hq
        have hat : ClaimedUnder (hash_token c cmd.token) w.db (d, .password_reset p.spent) :=
          ⟨p.spent, rfl, hhash, s, y, .password_reset p, hs, List.mem_of_mem_head? hy, hrow, rfl⟩
        exact hat.effect heff

/-- The new password is hashed once a reset has been claimed. -/
theorem rehash_step (hI : ResetsKept c rows w.db gs) {now : Time} {acc : List (Nat × Record)}
    {reset : PasswordReset} {resets : List PasswordReset} {new : String}
    (hg : gs[i]? = some ⟨.confirm cmd, log, .confirming (.claiming now [] acc)⟩)
    (hdb : w'.db = w.db)
    (hrows : (acc.map Prod.snd).filterMap password_resets.prj = reset :: resets) :
    ResetsKept c rows w'.db
      (gs.set i ⟨.confirm cmd, log', .confirming (.rehashed now acc reset new)⟩) := by
  have hf : ConfirmFacts (hash_token c cmd.token) w.db i (.claiming now [] acc) :=
    hI.journal.facts hg
  obtain ⟨ht, -, hclaimed⟩ := hf
  refine hI.same hg rfl hdb ⟨ht, hclaimed, ?_⟩
  obtain ⟨r, hr, hprj⟩ := List.mem_filterMap.mp (hrows ▸ List.mem_cons_self)
  obtain ⟨⟨d, r'⟩, hx, rfl⟩ := List.mem_map.mp hr
  obtain rfl : r' = .password_reset _ := password_resets.inj_of_prj hprj
  exact ⟨d, hx⟩

/-- An account is not among the resets claimed. -/
theorem not_claimed (hI : ResetsKept c rows w.db gs) {hash : String} {acc : List (Nat × Record)}
    (hclaimed : ∀ x ∈ acc, ClaimedUnder hash w.db x) {d : Nat} {s : Slot Record} {u : User}
    (hs : w.db[d]? = some s) (hview : s.view i = some (.user u)) (v : Option Record) :
    (d, v) ∉ marks acc := by
  intro hv
  obtain ⟨x, hx, heq⟩ := List.mem_map.mp hv
  obtain ⟨rfl, -⟩ := Prod.mk.inj heq
  obtain ⟨p, hxp, -, s', y, r, hs', hy, hrow, hlast⟩ := hclaimed x hx
  obtain rfl := Option.some.inj (hs.symm.trans hs')
  obtain ⟨a, ha, -⟩ := (hI.journal.slots hs).same
  have hne := (ha.of_bears (.inl ⟨y, hy, hrow⟩)).trans
    (ha.of_bears (Slot.bears_of_view hview)).symm
  rw [hlast, hxp] at hne
  cases hne

/-- The `UPDATE` of the account reaches a row. -/
theorem apply_step (hI : ResetsKept c rows w.db gs) {now : Time} {acc acc₂ : List (Nat × Record)}
    {reset : PasswordReset} {new : String} {d : Nat} {is : List Nat} {out : List Record}
    (hg : gs[i]? =
      some ⟨.confirm cmd, log, .confirming (.applying now acc reset new (d :: is) acc₂)⟩)
    (hans : World.answer c i (.sql (.visit d (users.sel (UserIs reset.user_id))
      (users.set (·.with_hash_at new now)))) ch w = some (w', Except.ok out)) :
    ResetsKept c rows w'.db (gs.set i ⟨.confirm cmd, log',
      .confirming (.applying now acc reset new is (acc₂ ++ out.map fun x => (d, x)))⟩) := by
  have hf : ConfirmFacts (hash_token c cmd.token) w.db i
      (.applying now acc reset new (d :: is) acc₂) := hI.journal.facts hg
  obtain ⟨ht, hclaimed, hreset, hnodup, howned⟩ := hf
  rcases World.answer_visit hans with ⟨hdb, hr | ⟨hr, -⟩⟩ |
    ⟨s, a, hs, hfree, hview, hp, hdb, hr⟩
  · cases hr
  · obtain rfl := Except.ok.inj hr
    refine hI.same hg rfl hdb ⟨?_, hclaimed, hreset, ?_, ?_⟩
    · simpa using ht
    · simpa using nodup_missed hnodup
    · simpa using howned
  · obtain rfl := Except.ok.inj hr
    obtain ⟨u, rfl, hid⟩ := users.sel_iff.mp hp
    have hset : users.set (·.with_hash_at new now) (.user u) =
        some (.user (u.with_hash_at new now)) := rfl
    simp only [show users.inj u = Record.user u from rfl, hset,
      Option.getD_some, List.map_cons, List.map_nil] at hdb hview ⊢
    have heff : Effect i w.db (w.db.set d (s.hold i (some (.user (u.with_hash_at new now))))) :=
      .hold hs hfree hview
    have hd : ∀ v, (d, v) ∉ marks acc ++ marks acc₂ := by
      intro v hv
      rcases List.mem_append.mp hv with hv | hv
      · exact hI.not_claimed hclaimed hs hview v hv
      · exact not_mem_marks hnodup v hv
    have hlast : lasting (.user (u.with_hash_at new now)) = lasting (.user u) := rfl
    refine hI.take hg rfl trivial ht hs hfree hview hd hlast hdb
      ⟨?_, fun x hx => (hclaimed x hx).effect heff, hreset, ?_, ?_⟩
    · have htake := ht.take (v := some (.user (u.with_hash_at new now))) hs hd
      simpa [marks] using htake
    · exact nodup_taken hnodup
    · intro x hx
      rcases List.mem_append.mp hx with hx | hx
      · exact howned x hx
      · obtain rfl := List.mem_singleton.mp hx
        exact ⟨_, rfl, beq_iff_eq.mp hid⟩

end Confirming

end ResetsKept

/-- A confirmation's step keeps the invariant. -/
theorem ResetsKept.confirm_step (hI : ResetsKept c rows w.db gs) {cmd : ConfirmPasswordResetCmd}
    {log : List ((o : Op) × o.Reply)} {ph ph' : PasswordPhase} {o : Op} {r : o.Reply}
    (hg : gs[i]? = some ⟨.confirm cmd, log, .confirming ph⟩)
    (hans : World.answer c i o ch w = some (w', r))
    (hstep : PasswordStep c (.reset cmd) ph o r ph') :
    ResetsKept c rows w'.db (gs.set i ⟨.confirm cmd, ⟨o, r⟩ :: log, .confirming ph'⟩) := by
  have hf : ConfirmFacts (hash_token c cmd.token) w.db i ph := hI.journal.facts hg
  cases hstep with
  | clock =>
      obtain ⟨-, rfl⟩ := World.answer_now hans
      exact hI.same hg rfl rfl hf
  | begin | begin_fails =>
      obtain rfl := World.answer_begin hans
      exact hI.same hg rfl rfl hf
  | scan_resets =>
      obtain ⟨rfl, rfl⟩ := World.answer_scanned hans
      exact hI.same hg rfl rfl ⟨hf, by simpa using nodup_matching i _ _, by simp⟩
  | scan_resets_fails =>
      obtain ⟨rfl, -⟩ := World.answer_scan hans
      exact hI.same hg rfl rfl (Tally.fail hf)
  | claim => exact hI.claim_step hg hans
  | claim_fails =>
      have hdb := World.answer_visit_failed hans
      exact hI.same hg rfl hdb hf.1.fail
  | unclaimed => exact hI.rollback hg rfl (World.answer_rollback hans) hf.1.rollback
  | rehash hrows =>
      obtain ⟨rfl, -⟩ := World.answer_bcrypt_hash hans
      exact hI.rehash_step hg rfl hrows
  | rehash_fails =>
      obtain ⟨rfl, -⟩ := World.answer_bcrypt_hash hans
      exact hI.same hg rfl rfl hf.1.fail
  | scan_owner =>
      obtain ⟨ht, hclaimed, hreset⟩ := hf
      obtain ⟨rfl, rfl⟩ := World.answer_scanned hans
      refine hI.same hg rfl rfl ⟨?_, hclaimed, hreset, ?_, by simp⟩
      · simpa [marks] using ht
      · simpa using nodup_matching i _ _
  | scan_owner_fails =>
      obtain ⟨rfl, -⟩ := World.answer_scan hans
      exact hI.same hg rfl rfl hf.1.fail
  | apply => exact hI.apply_step hg hans
  | apply_fails =>
      have hdb := World.answer_visit_failed hans
      exact hI.same hg rfl hdb hf.1.fail
  | commit_reset =>
      obtain ⟨ht, hclaimed, hreset, -, howned⟩ := hf
      have hdb := World.answer_committed hans
      exact hI.commit hg rfl hdb ⟨by simpa using ht.commit,
        fun x hx => (hclaimed x hx).effect .commit, hreset, howned⟩
  | commit_reset_fails =>
      have hdb := World.answer_commit_failed hans
      exact hI.rollback hg rfl hdb hf.1.rollback
  | drop | dropped => exact hI.rollback hg rfl (World.answer_rollback hans) hf.rollback
  | drop_applied =>
      exact hI.rollback hg rfl (World.answer_rollback hans)
        ⟨hf.1.rollback, fun x hx => (hf.2.1 x hx).effect .rollback, hf.2.2⟩

/-- A request's step keeps it. -/
theorem ResetsKept.request_step (hI : ResetsKept c rows w.db gs) {cmd : RequestPasswordResetCmd}
    {log : List ((o : Op) × o.Reply)} {ph ph' : ResetPhase} {o : Op} {r : o.Reply}
    (hg : gs[i]? = some ⟨.request cmd, log, ph⟩)
    (hans : World.answer c i o ch w = some (w', r))
    (hstep : ResetStep c (.request cmd) ph o r ph') :
    ResetsKept c rows w'.db (gs.set i ⟨.request cmd, ⟨o, r⟩ :: log, ph'⟩) := by
  have hf : ResetFacts c rows w.db i (.request cmd) ph := hI.journal.facts hg
  cases hstep with
  | look =>
      obtain ⟨rfl, hr | hr⟩ := World.answer_select hans
      · obtain rfl := Except.ok.inj hr
        exact hI.same hg rfl rfl ⟨hf, fun u hu => hI.finds hf hu⟩
      · cases hr
  | look_fails =>
      obtain ⟨rfl, -⟩ := World.answer_select hans
      exact hI.same hg rfl rfl hf
  | draw hrows =>
      obtain ⟨-, rfl⟩ := World.answer_fill hans
      obtain ⟨row, hrow, hprj⟩ := List.mem_filterMap.mp (hrows ▸ List.mem_cons_self)
      obtain rfl : row = .user _ := users.inj_of_prj hprj
      exact hI.same hg rfl rfl ⟨hf.1, hf.2 _ hrow⟩
  | clock =>
      obtain ⟨-, rfl⟩ := World.answer_now hans
      exact hI.same hg rfl rfl hf
  | begin =>
      obtain rfl := World.answer_begin hans
      exact hI.same hg rfl rfl hf
  | begin_fails =>
      obtain rfl := World.answer_begin hans
      exact hI.same hg rfl rfl hf.1
  | @store _ u raw now row =>
      rcases World.answer_insert hans with ⟨-, e, hr⟩ | ⟨id, -, hdup, hcon, hdb, hr⟩
      · cases hr
      · obtain rfl := Except.ok.inj hr
        refine hI.insert hg rfl trivial (fun {h} hh {d s r'} => ?_) hdb ⟨hf.2, ⟨_, rfl, rfl, rfl⟩, ?_⟩
        · exact hI.new_hash hdup hcon hh
        · exact ⟨_, by simpa using hf.1.insert _⟩
  | store_fails =>
      have hdb := World.answer_insert_failed hans
      exact hI.same hg rfl hdb hf.1.fail
  | push =>
      obtain ⟨hu, hrow, a, ht⟩ := hf
      rcases World.answer_insert hans with ⟨-, e, hr⟩ | ⟨id, -, -, -, hdb, hr⟩
      · cases hr
      · obtain rfl := Except.ok.inj hr
        refine hI.insert hg rfl trivial (fun {h} hh => by cases hh) hdb
          ⟨hu, hrow, rfl, a, w.db.length, ?_⟩
        simpa using ht.insert _
  | push_fails =>
      obtain ⟨-, -, a, ht⟩ := hf
      have hdb := World.answer_insert_failed hans
      exact hI.same hg rfl hdb ht.fail
  | commit =>
      obtain ⟨hu, hrow, hevent, a, b, ht⟩ := hf
      have hdb := World.answer_committed hans
      exact hI.commit hg rfl hdb ⟨hu, hrow, hevent, a, b, by simpa using ht.commit⟩
  | commit_fails =>
      obtain ⟨-, -, -, a, b, ht⟩ := hf
      have hdb := World.answer_commit_failed hans
      exact hI.rollback hg rfl hdb ht.rollback
  | unstored =>
      obtain ⟨-, -, a, ht⟩ := hf
      exact hI.rollback hg rfl (World.answer_rollback hans) ht.rollback
  | unpushed =>
      obtain ⟨-, -, -, a, b, ht⟩ := hf
      exact hI.rollback hg rfl (World.answer_rollback hans) ht.rollback
  | drop | dropped => exact hI.rollback hg rfl (World.answer_rollback hans) hf.rollback
  | drop_announced =>
      obtain ⟨hu, hrow, hevent, a, b, ht⟩ := hf
      exact hI.rollback hg rfl (World.answer_rollback hans) ⟨hu, hrow, hevent, a, b, ht.rollback⟩

theorem ResetsKept.step (hI : ResetsKept c rows w.db gs) {g : ResetGhost c} {ph' : ResetPhase}
    {o : Op} {r : o.Reply} (hg : gs[i]? = some g) (hans : World.answer c i o ch w = some (w', r))
    (hstep : ResetStep c g.call g.phase o r ph') :
    ResetsKept c rows w'.db (gs.set i ⟨g.call, ⟨o, r⟩ :: g.log, ph'⟩) := by
  obtain ⟨call, log, ph⟩ := g
  cases call with
  | request cmd => exact hI.request_step hg hans hstep
  | confirm cmd =>
      cases hstep with
      | confirm h => exact hI.confirm_step hg hans h

end Steps

/-! ### Every run -/

section Runs

variable {c : Crates} {rows : List Record} {w : World} {cfg : ResetConfig}
  {evs : List (Basis.Event Choice ResetCall Expiry)}

theorem resets_move {gs gs' : List (ResetGhost c)} {ev : Basis.Event Choice ResetCall Expiry}
    {w' : World} (hI : ResetsKept c rows cfg.shared.db gs)
    (hmv : Protocol.Move (resetting c) (announcing c) cfg gs ev w' gs') :
    ResetsKept c rows w'.db gs' := by
  cases hmv with
  | spawn call =>
      refine ⟨hI.journal.spawn (resets_stable c rows) fun ht => ?_, hI.keyed⟩
      cases call with
      | request cmd => exact ht
      | confirm cmd => exact ht
  | step hg hcall hnext hans hstep => exact hI.step hg hans hstep
  | env e =>
      change ResetsKept c rows (cfg.shared.expire e).db gs
      rw [World.expire_db]
      exact hI

theorem loaded_get {d : Nat} {s : Slot Record} (hs : (rows.map Slot.loaded)[d]? = some s) :
    ∃ r, rows[d]? = some r ∧ s = Slot.loaded r := by
  rw [List.getElem?_map] at hs
  obtain ⟨r, hr, rfl⟩ := Option.map_eq_some_iff.mp hs
  exact ⟨r, hr, rfl⟩

theorem resets_start (hschema : Schema rows) (hw : w.db = rows.map Slot.loaded) :
    ResetsKept c rows w.db [] := by
  rw [hw]
  refine ⟨.start fun {d r} hr => ⟨⟨_, .loaded r, fun r' hr' => ?_⟩, .loaded ?_ r, fun _ => ?_⟩, ?_⟩
  · rw [Option.some.inj (hr.symm.trans hr')]
  · unfold FirstMade
    rw [if_pos (List.getElem?_eq_some_iff.mp hr).1]
  · simp [Slot.loaded]
  · intro d e s s' r r' h hs hs' hr hr' hh hh'
    obtain ⟨r₁, hr₁, rfl⟩ := loaded_get hs
    obtain ⟨r₂, hr₂, rfl⟩ := loaded_get hs'
    obtain ⟨p, rfl, rfl⟩ := reset_of_hash ((reset_hash_of_lasting
      ((Slot.Is.loaded r₁).of_bears hr).symm).trans hh)
    obtain ⟨q, rfl, hq⟩ := reset_of_hash ((reset_hash_of_lasting
      ((Slot.Is.loaded r₂).of_bears hr').symm).trans hh')
    exact hschema.reset_hashes hr₁ hr₂ hq.symm

theorem resets_kept (hschema : Schema rows) (hw : w.db = rows.map Slot.loaded)
    (hrun : (resetting c).run ⟨w, []⟩ evs = some cfg) :
    ∃ gs, Protocol.Tracked (announcing c) cfg gs ∧ ResetsKept c rows cfg.shared.db gs :=
  Protocol.run_tracks (S := resetting c) (C := fun _ _ => True) (announcing_follows c)
    (fun (w : World) gs => ResetsKept c rows w.db gs)
    (fun _ _ _ _ _ _ hI _ hmv => resets_move hI hmv)
    ⟨[], Protocol.tracked_nil _ w, resets_start hschema hw⟩ (System.along_true _ _ _) hrun

end Runs

/-! ### Rows and events correspond -/

/-- The user with this address is the one with this id. -/
def Holder (places : List (Option Record)) (email : String) (id : Uuid) : Prop :=
  (∃ (d : Nat) (u : User), places[d]? = some (some (.user u)) ∧ u.email = email ∧ u.id = id) ∧
    ∀ (d : Nat) (u : User), places[d]? = some (some (.user u)) → u.email = email → u.id = id

/-- The event at place `b` announces the reset at place `a`. -/
def Announces (c : Crates) (places : List (Option Record)) (a b : Nat) : Prop :=
  ∃ p email raw, places[a]? = some (some (.password_reset p)) ∧
    places[b]? = some (some (.event (.password_reset_requested email raw))) ∧
    p.token_hash = hash_token c raw ∧ Holder places email p.user_id

/-- Resets and their events are in one-to-one correspondence. -/
structure Corresponds (c : Crates) (places : List (Option Record)) : Prop where
  announced : ∀ (a : Nat) (p : PasswordReset), places[a]? = some (some (.password_reset p)) →
    ∃! b, Announces c places a b
  stored : ∀ (b : Nat) (email raw : String),
    places[b]? = some (some (.event (.password_reset_requested email raw))) →
    ∃! a, Announces c places a b

/-- The unique index on `users.email`. -/
def EmailsDiffer (rows : List Record) : Prop :=
  ∀ (a b : Nat) (u v : User), rows[a]? = some (.user u) → rows[b]? = some (.user v) →
    u.email = v.email → a = b

section Pairs

variable {c : Crates} {rows : List Record} {db : Table Record} {gs : List (ResetGhost c)}
  {a b d k : Nat}

/-- The row at a place, as the table has it now. -/
theorem place_of_slot {s : Slot Record} {r : Record} (hs : db[d]? = some s)
    (hcur : s.current = some r) : (db.map Slot.current)[d]? = some (some r) := by
  rw [List.getElem?_map, hs, Option.map_some, hcur]

theorem slot_of_place {r : Record} (h : (db.map Slot.current)[d]? = some (some r)) :
    ∃ s, db[d]? = some s ∧ s.current = some r := by
  rw [List.getElem?_map] at h
  exact Option.map_eq_some_iff.mp h

theorem place_of_row {r : Record} : (rows.map some)[d]? = some (some r) ↔ rows[d]? = some r := by
  rw [List.getElem?_map, Option.map_eq_some_iff]
  constructor
  · intro hpost
    obtain ⟨r', hr', heq⟩ := hpost
    rw [hr', Option.some.inj heq]
  · intro h
    exact ⟨r, h, rfl⟩

namespace ResetsKept

/-- A row from the start is there still, but for what may change. -/
theorem place_of_start (hI : ResetsKept c rows db gs) {r : Record} (hr : rows[d]? = some r) :
    ∃ r', (db.map Slot.current)[d]? = some (some r') ∧ lasting r' = lasting r := by
  have hlt := (List.getElem?_eq_some_iff.mp hr).1
  have hs := List.getElem?_eq_getElem (Nat.lt_of_lt_of_le hlt hI.journal.length)
  have hat := hI.journal.slots hs
  obtain ⟨i, hi, hrow⟩ := hat.same
  obtain ⟨r', hcur, hlast⟩ := hi.current (hat.there hlt)
  exact ⟨r', place_of_slot hs hcur, hlast.trans (hrow r hr).symm⟩

/-- A row is from the start, but for what may change, or a request has inserted it. -/
theorem start_of_place (hI : ResetsKept c rows db gs) {r : Record}
    (h : (db.map Slot.current)[d]? = some (some r)) :
    (∃ r₀, rows[d]? = some r₀ ∧ lasting r₀ = lasting r) ∨
      ∃ k cmd u raw row a b, Inserted c rows db gs k cmd u raw row a b ∧ (d = a ∨ d = b) := by
  obtain ⟨s, hs, hcur⟩ := slot_of_place h
  obtain ⟨i, hi, hrow⟩ := (hI.journal.slots hs).same
  by_cases hd : d < rows.length
  · have hr : rows[d]? = some rows[d] := List.getElem?_eq_getElem hd
    exact .inl ⟨_, hr, (hrow _ hr).trans (hi.of_bears (Slot.bears_of_current hcur)).symm⟩
  · refine .inr (hI.inserted hs (by omega) fun hnil => ?_)
    rw [Slot.current, hnil] at hcur
    cases hcur

theorem user_of_place (hI : ResetsKept c rows db gs) {u : User}
    (h : (db.map Slot.current)[d]? = some (some (.user u))) :
    ∃ v, rows[d]? = some (.user v) ∧ v.id = u.id ∧ v.email = u.email := by
  obtain ⟨s, hs, hcur⟩ := slot_of_place h
  refine hI.user_row hs (Slot.bears_of_current hcur) fun hnil => ?_
  rw [Slot.current, hnil] at hcur
  cases hcur

/-- Who a request is for is still the one with that address. -/
theorem holder (hI : ResetsKept c rows db gs) (hemails : EmailsDiffer rows) {email : String}
    {u : User} (h : Addressee rows email u) : Holder (db.map Slot.current) email u.id := by
  obtain ⟨d, v, hrow, hid, hemail⟩ := h
  constructor
  · obtain ⟨r, hplace, hlast⟩ := hI.place_of_start hrow
    obtain ⟨w, rfl, hid', hemail'⟩ := user_of_lasting hlast
    exact ⟨d, w, hplace, hemail'.trans hemail, hid'.trans hid⟩
  · intro d' w hplace hw
    obtain ⟨v', hrow', hid', hemail'⟩ := hI.user_of_place hplace
    obtain rfl := hemails _ _ _ _ hrow' hrow (hemail'.trans (hw.trans hemail.symm))
    obtain rfl : v = v' := by
      rw [hrow] at hrow'
      simpa using hrow'
    exact hid'.symm.trans hid

end ResetsKept

theorem Holder.addressee {email : String} {id : Uuid} (h : Holder (rows.map some) email id) :
    ∃ u, Addressee rows email u ∧ u.id = id := by
  obtain ⟨⟨d, u, hu, hemail, hid⟩, -⟩ := h
  exact ⟨u, ⟨d, u, place_of_row.mp hu, rfl, hemail⟩, hid⟩

/-- The reset and the event have belonged together from the start, or from their insertion. -/
def Paired (c : Crates) (rows : List Record) (db : Table Record) (gs : List (ResetGhost c))
    (a b : Nat) : Prop :=
  Announces c (rows.map some) a b ∨ ∃ k cmd u raw row, Inserted c rows db gs k cmd u raw row a b

namespace ResetsKept

theorem announces (hI : ResetsKept c rows db gs) (hemails : EmailsDiffer rows)
    (h : Paired c rows db gs a b) : Announces c (db.map Slot.current) a b := by
  rcases h with ⟨p, email, raw, ha, hb, hhash, hholder⟩ | ⟨k, cmd, u, raw, row, hins⟩
  · obtain ⟨r, ha', hlast⟩ := hI.place_of_start (place_of_row.mp ha)
    obtain ⟨q, rfl, hid, hhash'⟩ := reset_of_lasting hlast
    obtain ⟨r', hb', hlast'⟩ := hI.place_of_start (place_of_row.mp hb)
    obtain rfl := event_of_lasting hlast'
    obtain ⟨u, hu, hid'⟩ := hholder.addressee
    refine ⟨q, email, raw, ha', hb', hhash'.trans hhash, ?_⟩
    rw [hid, ← hid']
    exact hI.holder hemails hu
  · obtain ⟨⟨s, r, hs, hcur, hlast, -⟩, s', hs', hcur'⟩ := hins.rows_at hI
    obtain ⟨p, rfl, hid, hhash⟩ := hins.reset
    obtain ⟨q, rfl, hid', hhash'⟩ := reset_of_lasting hlast
    refine ⟨q, cmd.email, raw, place_of_slot hs hcur, place_of_slot hs' hcur',
      hhash'.trans hhash, ?_⟩
    rw [hid', hid]
    exact hI.holder hemails hins.owner

theorem paired_of_reset (hI : ResetsKept c rows db gs) (h₀ : Corresponds c (rows.map some))
    {p : PasswordReset} (h : (db.map Slot.current)[a]? = some (some (.password_reset p))) :
    ∃ b, Paired c rows db gs a b := by
  rcases hI.start_of_place h with ⟨r, hr, hlast⟩ | ⟨k, cmd, u, raw, row, a', b, hins, rfl | rfl⟩
  · obtain ⟨q, rfl, -, -⟩ := reset_of_lasting hlast
    obtain ⟨b, hb, -⟩ := h₀.announced a q (place_of_row.mpr hr)
    exact ⟨b, .inl hb⟩
  · exact ⟨b, .inr ⟨k, cmd, u, raw, row, hins⟩⟩
  · obtain ⟨-, s, hs, hcur⟩ := hins.rows_at hI
    rw [place_of_slot hs hcur] at h
    cases h

theorem paired_of_event (hI : ResetsKept c rows db gs) (h₀ : Corresponds c (rows.map some))
    {email raw : String}
    (h : (db.map Slot.current)[b]? = some (some (.event (.password_reset_requested email raw)))) :
    ∃ a, Paired c rows db gs a b := by
  rcases hI.start_of_place h with ⟨r, hr, hlast⟩ | ⟨k, cmd, u, raw', row, a, b', hins, rfl | rfl⟩
  · obtain rfl := event_of_lasting hlast
    obtain ⟨a, ha, -⟩ := h₀.stored b email raw (place_of_row.mpr hr)
    exact ⟨a, .inl ha⟩
  · obtain ⟨p, rfl, -⟩ := hins.reset
    obtain ⟨⟨s, r, hs, hcur, hlast, -⟩, -⟩ := hins.rows_at hI
    obtain ⟨q, rfl, -⟩ := reset_of_lasting hlast
    rw [place_of_slot hs hcur] at h
    cases h
  · exact ⟨a, .inr ⟨k, cmd, u, raw', row, hins⟩⟩

/-- What a request has inserted begins its slot, and no row from the start is there. -/
theorem first_version (hI : ResetsKept c rows db gs) {cmd : RequestPasswordResetCmd} {u : User}
    {raw : String} {row : Record} (hins : Inserted c rows db gs k cmd u raw row a b)
    {v : Option Record} (hv : ∃ s, db[d]? = some s ∧ ⟨some k, v⟩ ∈ s.versions) :
    rows.length ≤ d ∧ ∃ s pre, db[d]? = some s ∧ s.versions = pre ++ [⟨some k, v⟩] := by
  obtain ⟨s, hs, hmem⟩ := hv
  obtain ⟨log, now, event, hg⟩ := hins.call
  have hreq : MadeBy gs ResetCall.IsRequest (some k) := ⟨k, _, rfl, hg, trivial⟩
  have hgrows := (hI.journal.slots hs).grows
  obtain ⟨pre, hpre⟩ := hgrows.first_of hmem fun hno => hreq.not_both hno
  refine ⟨?_, s, pre, hs, hpre⟩
  by_contra hlt
  have hfirst := hgrows.first hpre
  unfold FirstMade at hfirst
  rw [if_pos (by omega)] at hfirst
  cases hfirst

/-- A reset has one event. -/
theorem one_event (hI : ResetsKept c rows db gs) (h₀ : Corresponds c (rows.map some)) {b' : Nat}
    (h : Paired c rows db gs a b) (h' : Paired c rows db gs a b') : b = b' := by
  have hold : ∀ {b : Nat}, Announces c (rows.map some) a b → a < rows.length := by
    intro b hpost
    obtain ⟨p, email, raw, ha, _⟩ := hpost
    exact (List.getElem?_eq_some_iff.mp (place_of_row.mp ha)).1
  rcases h with h | ⟨k, cmd, u, raw, row, hins⟩ <;>
    rcases h' with h' | ⟨k', cmd', u', raw', row', hins'⟩
  · obtain ⟨p, -, -, ha, -⟩ := id h
    obtain ⟨b₀, -, hone⟩ := h₀.announced a p ha
    rw [hone b h, hone b' h']
  · have hle := (hI.first_version hins' ((hins'.wrote a _).mpr List.mem_cons_self)).1
    have hlt := hold h
    omega
  · have hle := (hI.first_version hins ((hins.wrote a _).mpr List.mem_cons_self)).1
    have hlt := hold h'
    omega
  · obtain ⟨-, s, pre, hs, hpre⟩ := hI.first_version hins
      ((hins.wrote a _).mpr List.mem_cons_self)
    obtain ⟨-, s', pre', hs', hpre'⟩ := hI.first_version hins'
      ((hins'.wrote a _).mpr List.mem_cons_self)
    obtain rfl := Option.some.inj (hs.symm.trans hs')
    have hx := (List.append_inj' (hpre.symm.trans hpre') rfl).2
    obtain rfl : k = k' := by simpa using congrArg Version.writer (List.cons.inj hx).1
    have hb := (hins.wrote b' _).mp ((hins'.wrote b' _).mpr
      (List.mem_cons_of_mem _ List.mem_cons_self))
    obtain ⟨p, rfl, -⟩ := hins.reset
    rcases List.mem_cons.mp hb with heq | hmem
    · cases (Prod.mk.inj heq).2
    · exact (Prod.mk.inj (List.mem_singleton.mp hmem)).1.symm

/-- An event's token has the hash of one reset only. -/
theorem one_reset_of_hash (hI : ResetsKept c rows db gs) {a' : Nat} {p p' : PasswordReset}
    (h : (db.map Slot.current)[a]? = some (some (.password_reset p)))
    (h' : (db.map Slot.current)[a']? = some (some (.password_reset p')))
    (hhash : p.token_hash = p'.token_hash) : a = a' := by
  obtain ⟨s, hs, hcur⟩ := slot_of_place h
  obtain ⟨s', hs', hcur'⟩ := slot_of_place h'
  exact hI.keyed a a' s s' _ _ p'.token_hash hs hs' (Slot.bears_of_current hcur)
    (Slot.bears_of_current hcur') (congrArg some hhash) rfl

theorem corresponds (hI : ResetsKept c rows db gs) (hemails : EmailsDiffer rows)
    (h₀ : Corresponds c (rows.map some)) : Corresponds c (db.map Slot.current) := by
  have hone : ∀ {a a' b : Nat}, Announces c (db.map Slot.current) a b →
      Announces c (db.map Slot.current) a' b → a = a' := by
    intro a a' b hpost hends
    obtain ⟨p, email, raw, ha, hb, hhash, _⟩ := hpost
    obtain ⟨p', email', raw', ha', hb', hhash', _⟩ := hends
    rw [hb] at hb'
    simp only [Option.some.injEq, Record.event.injEq, Event.password_reset_requested.injEq] at hb'
    obtain ⟨rfl, rfl⟩ := hb'
    exact hI.one_reset_of_hash ha ha' (hhash.trans hhash'.symm)
  constructor
  · intro a p ha
    obtain ⟨b, hb⟩ := hI.paired_of_reset h₀ ha
    refine ⟨b, hI.announces hemails hb, fun b' hb' => ?_⟩
    obtain ⟨-, email, raw, -, hplace, -⟩ := id hb'
    obtain ⟨a', ha'⟩ := hI.paired_of_event h₀ hplace
    obtain rfl := hone hb' (hI.announces hemails ha')
    exact hI.one_event h₀ ha' hb
  · intro b email raw hb
    obtain ⟨a, ha⟩ := hI.paired_of_event h₀ hb
    exact ⟨a, hI.announces hemails ha, fun a' ha' => hone ha' (hI.announces hemails ha)⟩

/-- The owner of a reset claimed under an event's token has the address of that event. -/
theorem owner_of_event (hI : ResetsKept c rows db gs) (hschema : Schema rows)
    (h₀ : Corresponds c (rows.map some)) (hemails : EmailsDiffer rows) {email raw : String}
    (hevent : (db.map Slot.current)[b]? =
      some (some (.event (.password_reset_requested email raw))))
    {e : Nat} {reset : PasswordReset}
    (hclaimed : ClaimedUnder (hash_token c raw) db (e, .password_reset reset)) {u : User}
    (hid : u.id = reset.user_id) {w : Option Nat}
    (hu : ∃ s, db[d]? = some s ∧ ⟨w, some (.user u)⟩ ∈ s.versions) : u.email = email := by
  obtain ⟨a, ha⟩ := hI.paired_of_event h₀ hevent
  obtain ⟨p, email', raw', hreset, hevent', hhash, ⟨d₀, u₀, hu₀, hemail, hid₀⟩, -⟩ :=
    hI.announces hemails ha
  rw [hevent] at hevent'
  simp only [Option.some.injEq, Record.event.injEq, Event.password_reset_requested.injEq] at hevent'
  obtain ⟨rfl, rfl⟩ := hevent'
  -- the reset that was claimed is the one the event announces
  obtain ⟨q, hq, hqhash, s, y, r, hs, hy, hrow, hlast⟩ := hclaimed
  obtain rfl : reset = q := Record.password_reset.inj hq
  obtain ⟨s', hs', hcur⟩ := slot_of_place hreset
  have hbears : s.Bears r := .inl ⟨y, hy, hrow⟩
  obtain rfl := hI.keyed e a s s' r _ _ hs hs' hbears (Slot.bears_of_current hcur)
    ((reset_hash_of_lasting hlast).trans (congrArg some hqhash)) (congrArg some hhash)
  obtain rfl := Option.some.inj (hs.symm.trans hs')
  obtain ⟨i, hi, -⟩ := (hI.journal.slots hs).same
  obtain ⟨q', hq', huser, -⟩ := reset_of_lasting (hlast.symm.trans ((hi.of_bears hbears).trans
    (hi.of_bears (Slot.bears_of_current hcur)).symm))
  obtain rfl : reset = q' := Record.password_reset.inj hq'
  -- and so its owner is the one the event is for
  obtain ⟨t, ht, hmem⟩ := hu
  obtain ⟨v, hv, hvid, hvemail⟩ := hI.user_row ht (.inl ⟨_, hmem, rfl⟩) (List.ne_nil_of_mem hmem)
  obtain ⟨v₀, hv₀, hvid₀, hvemail₀⟩ := hI.user_of_place hu₀
  obtain rfl := hschema.user_ids hv hv₀ (by rw [hvid, hid, huser, hvid₀, hid₀])
  obtain rfl : v = v₀ := by
    rw [hv] at hv₀
    simpa using hv₀
  rw [← hvemail, hvemail₀, hemail]

/-- A confirmation writes the resets and the row of the user its token's event is for. -/
theorem confirms (hI : ResetsKept c rows db gs) (hschema : Schema rows)
    (hemails : EmailsDiffer rows) (h₀ : Corresponds c (rows.map some)) {g : ResetGhost c}
    (hg : gs[k]? = some g) {cmd : ConfirmPasswordResetCmd} (hcall : g.call = .confirm cmd)
    {email : String} (hevent : (db.map Slot.current)[b]? =
      some (some (.event (.password_reset_requested email cmd.token))))
    {v : Option Record} (hv : ∃ s, db[d]? = some s ∧ ⟨some k, v⟩ ∈ s.versions) :
    (∃ p, v = some (.password_reset p)) ∨ ∃ u, v = some (.user u) ∧ u.email = email := by
  obtain ⟨call, log, ph⟩ := g
  obtain rfl : call = .confirm cmd := hcall
  have hf : ResetFacts c rows db k (.confirm cmd) ph := hI.journal.facts hg
  cases ph with
  | confirming ph =>
      rcases ConfirmFacts.confirm_cases hf with hnone |
        ⟨acc, acc₂, reset, hclaimed, ⟨e, hreset⟩, howned, hwrote⟩
      · exact absurd ((hnone d v).mp hv) List.not_mem_nil
      rcases List.mem_append.mp ((hwrote d v).mp hv) with hmem | hmem
      · obtain ⟨x, hx, heq⟩ := List.mem_map.mp hmem
        obtain ⟨p, hp, -⟩ := hclaimed x hx
        exact .inl ⟨p, by rw [← (Prod.mk.inj heq).2, hp]⟩
      · obtain ⟨x, hx, heq⟩ := List.mem_map.mp hmem
        obtain ⟨u, hu, hid⟩ := howned x hx
        obtain ⟨-, rfl⟩ := Prod.mk.inj heq
        exact .inr ⟨u, by rw [hu], hI.owner_of_event hschema h₀ hemails hevent (hclaimed _ hreset) hid
          (by rwa [hu] at hv)⟩
  | _ => exact hf.elim

end ResetsKept

end Pairs

/-! ### Every run -/

/-- Resets and events are stored together or not at all, and lead back to one account. -/
structure ResetsAnnounced (c : Crates) (rows : List Record) (cfg : ResetConfig) : Prop where
  corresponds : Corresponds c (cfg.shared.db.map Slot.current)
  /-- A request becomes visible as a whole, or not. -/
  together : ∀ {k : Nat} {cmd : RequestPasswordResetCmd}, cfg.call k = some (.request cmd) →
    cfg.shared.db.WroteOnly k [] ∨ ∃ a b p raw,
      cfg.shared.db.WroteOnly k [(a, some (.password_reset p)),
        (b, some (.event (.password_reset_requested cmd.email raw)))] ∧
      Announces c (cfg.shared.db.map Slot.current) a b
  failed : ∀ {k : Nat} {cmd : RequestPasswordResetCmd} {e : AuthError},
    cfg.call k = some (.request cmd) → cfg.result k = some (.requested (.error e)) →
    cfg.shared.db.WroteOnly k [] ∧ ∀ d v, ¬ cfg.shared.db.Locked k d v
  unknown : ∀ {k : Nat} {cmd : RequestPasswordResetCmd}, cfg.call k = some (.request cmd) →
    (∀ (d : Nat) (u : User), rows[d]? = some (.user u) → u.email ≠ cmd.email) →
    cfg.shared.db.WroteOnly k []
  /-- An event's token can change the password of the user the event is for, and no other. -/
  redeemed : ∀ {k b : Nat} {cmd : ConfirmPasswordResetCmd} {email : String},
    cfg.call k = some (.confirm cmd) → (cfg.shared.db.map Slot.current)[b]? =
      some (some (.event (.password_reset_requested email cmd.token))) →
    ∀ {d : Nat} {s : Slot Record} {v : Option Record}, cfg.shared.db[d]? = some s →
      ⟨some k, v⟩ ∈ s.versions →
      (∃ p, v = some (.password_reset p)) ∨ ∃ u, v = some (.user u) ∧ u.email = email

/-- **Reset requests are stored and announced together**, in every run of requests and
confirmations, whatever fails, from any tables in which they correspond. -/
theorem resets_announced (c : Crates) (rows : List Record) (hschema : Schema rows)
    (hemails : EmailsDiffer rows) (h₀ : Corresponds c (rows.map some)) (w : World)
    (hw : w.db = rows.map Slot.loaded) (evs : List (Basis.Event Choice ResetCall Expiry))
    (cfg : ResetConfig) (hrun : (resetting c).run ⟨w, []⟩ evs = some cfg) :
    ResetsAnnounced c rows cfg := by
  obtain ⟨gs, htr, hI⟩ := resets_kept hschema hw hrun
  have hfacts : ∀ {k : Nat} {cmd : RequestPasswordResetCmd}, cfg.call k = some (.request cmd) →
      ∃ log ph, gs[k]? = some ⟨.request cmd, log, ph⟩ ∧
        ResetFacts c rows cfg.shared.db k (.request cmd) ph := by
    intro k cmd hcall
    obtain ⟨th, hth, hc⟩ := Option.map_eq_some_iff.mp hcall
    obtain ⟨⟨call, log, ph⟩, hg, hcall', -⟩ := htr.ghost hth
    obtain rfl : call = .request cmd := hcall'.trans hc
    exact ⟨log, ph, hg, hI.journal.facts hg⟩
  refine ⟨hI.corresponds hemails h₀, ?_, ?_, ?_, ?_⟩
  · intro k cmd hcall
    obtain ⟨log, ph, hg, hf⟩ := hfacts hcall
    rcases hf.request_cases with hnone | ⟨u, raw, now, row, a, b, hu, ⟨p, rfl, hp⟩, rfl, hwrote⟩
    · exact .inl hnone
    · exact .inr ⟨a, b, p, raw, hwrote, hI.announces hemails
        (.inr ⟨k, cmd, u, raw, _, ⟨log, now, _, hg⟩, hu, ⟨p, rfl, hp⟩, hwrote⟩)⟩
  · intro k cmd e hcall hres
    obtain ⟨log, ph, hg, hf⟩ := hfacts hcall
    obtain ⟨g, hg', hfinal⟩ := htr.final hres
    obtain rfl := Option.some.inj (hg.symm.trans hg')
    obtain rfl : ph = .closed := hfinal
    have ht : Tally cfg.shared.db k (some []) [] := hf
    exact ⟨ht.written, fun d v hl => List.not_mem_nil ((ht.holds rfl d v).mp hl)⟩
  · intro k cmd hcall hno
    obtain ⟨log, ph, hg, hf⟩ := hfacts hcall
    rcases hf.request_cases with hnone | ⟨u, raw, now, row, a, b, ⟨d, v, hv, -, hemail⟩, -⟩
    · exact hnone
    · exact absurd hemail (hno d v hv)
  · intro k b cmd email hcall hevent d s v hs hv
    obtain ⟨th, hth, hc⟩ := Option.map_eq_some_iff.mp hcall
    obtain ⟨g, hg, hcall', -⟩ := htr.ghost hth
    exact hI.confirms hschema hemails h₀ hg (hcall'.trans hc) hevent ⟨s, hs, hv⟩

/-- Alice, who has asked for nothing yet. -/
def no_resets : List Record := [.user (sample_user "old password")]

theorem no_resets_schema : Schema no_resets := by
  refine ⟨?_, ?_, ?_⟩
  · intro a b u v ha hb _
    rcases a with _ | a
    · rcases b with _ | b
      · rfl
      · cases hb
    · cases ha
  · intro a b p q ha _ _
    rcases a with _ | a <;> cases ha
  · intro a p ha
    rcases a with _ | a <;> cases ha

theorem no_resets_emails : EmailsDiffer no_resets := by
  intro a b u v ha hb _
  rcases a with _ | a
  · rcases b with _ | b
    · rfl
    · cases hb
  · cases ha

theorem no_resets_correspond : Corresponds sample_crates (no_resets.map some) := by
  constructor
  · intro a p ha
    rcases a with _ | a <;> cases ha
  · intro b email raw hb
    rcases b with _ | b <;> cases hb

/-- Two requests for Alice and one for an address nobody has; the first request's outbox fails,
and the second's token is then redeemed. -/
def three_requests : List (Basis.Event Choice ResetCall Expiry) :=
  [.spawn (.request ⟨"alice@example.com"⟩), .spawn (.request ⟨"alice@example.com"⟩),
    .spawn (.request ⟨"nobody@example.com"⟩), .step 0 .go, .step 1 .go, .step 2 .go,
    .step 0 (.bytes (List.replicate 32 1)), .step 1 (.bytes (List.replicate 32 2)),
    .step 0 (.time 0), .step 1 (.time 0), .step 0 .go, .step 1 .go, .step 0 (.key 1),
    .step 1 (.key 2), .step 0 .fail, .step 1 .go, .step 0 .go, .step 1 .go, .step 1 .go,
    .spawn (.confirm ⟨token_of 2, "violet ladder engine cactus"⟩), .step 3 (.time 0), .step 3 .go,
    .step 3 .go, .step 3 .go, .step 3 (.number 0), .step 3 .go, .step 3 .go, .step 3 .go, .step 3 .go]

theorem resets_announced_for_three : ∃ cfg,
    (resetting sample_crates).run ⟨World.of no_resets, []⟩ three_requests = some cfg ∧
      (∃ e, cfg.result 0 = some (.requested (.error e))) ∧
      cfg.result 1 = some (.requested (.ok ())) ∧ cfg.result 2 = some (.requested (.ok ())) ∧
      cfg.result 3 = some (.confirmed (.ok 7)) ∧ ResetsAnnounced sample_crates no_resets cfg :=
  ⟨_, rfl, ⟨_, rfl⟩, rfl, rfl, rfl, resets_announced sample_crates no_resets no_resets_schema
    no_resets_emails no_resets_correspond (World.of no_resets) rfl three_requests _ rfl⟩

end Authnz
