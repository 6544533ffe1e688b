/-
Ceremony states under concurrency.

`take_reg_state` and `take_auth_state` read the cache and then delete the key, and
nobody looks at what the deletion did.  Between the two a second take finds the same
state, and a state stored meanwhile is deleted unread: `ceremonies_taken_twice_and_lost`
has a schedule for each.

What does hold is `ceremonies_taken_once`.  As long as no deletion of a take fails,
and nothing is stored or found under a key while a take is between its two
operations on it, every stored state is found by one take at most, a take deletes
nothing but what it found, and all results are those of a sequential run in which
taking is one removal.
-/
import Authnz.Basis.Watch
import Authnz.Model.Concurrent
import Authnz.Model.Passkey
import Authnz.Model.Sample

namespace Authnz

open Basis

/-! ### Both caches as one -/

/-- A key of one of the two caches. -/
inductive Drawer where
  | reg (key : String)
  | auth (key : String)
  deriving DecidableEq

/-- The state of a ceremony of either kind. -/
inductive CeremonyState where
  | reg (state : PasskeyRegistration)
  | auth (state : PasskeyAuthentication)
  deriving DecidableEq

/-- What the caches keep of it. -/
structure TimedState where
  issued_at_secs : Nat
  state : CeremonyState
  deriving DecidableEq

def TimedState.reg (t : TimedRegState) : TimedState := ⟨t.issued_at_secs, .reg t.state⟩

def TimedState.auth (t : TimedAuthState) : TimedState := ⟨t.issued_at_secs, .auth t.state⟩

/-- What lies under a key. -/
def World.drawer (w : World) : Drawer → Option TimedState
  | .reg k => (w.reg_store k).map .reg
  | .auth k => (w.auth_store k).map .auth

/-- What a take makes of the state it found, by the clock. -/
def in_time (now : Time) (t : TimedState) : Option CeremonyState :=
  if (now / seconds 1).toNat - t.issued_at_secs > CHALLENGE_TTL then none else some t.state

/-! ### The calls -/

inductive CeremonyCall where
  | store_reg (user_id : Uuid) (state : PasskeyRegistration)
  | take_reg (user_id : Uuid)
  | store_auth (username : String) (state : PasskeyAuthentication)
  | take_auth (username : String)
  deriving DecidableEq

inductive CeremonyResult where
  | stored
  | taken (state : Option CeremonyState)
  deriving DecidableEq

namespace CeremonyCall

variable (c : Crates)

def code : CeremonyCall → Handler CeremonyResult
  | .store_reg user_id state => do
      PasskeyState.store_reg_state c user_id state
      return .stored
  | .take_reg user_id => do
      return .taken ((← PasskeyState.take_reg_state c user_id).map .reg)
  | .store_auth username state => do
      PasskeyState.store_auth_state username state
      return .stored
  | .take_auth username => do
      return .taken ((← PasskeyState.take_auth_state username).map .auth)

/-- The key the call works on. -/
def drawer : CeremonyCall → Drawer
  | .store_reg user_id _ => .reg (c.uuid_to_string user_id)
  | .take_reg user_id => .reg (c.uuid_to_string user_id)
  | .store_auth username _ => .auth username
  | .take_auth username => .auth username

/-- What a store puts there. -/
def state : CeremonyCall → Option CeremonyState
  | .store_reg _ state => some (.reg state)
  | .store_auth _ state => some (.auth state)
  | _ => none

end CeremonyCall

/-- Any number of these calls at once; the caches may drop entries at any time. -/
abbrev ceremonies (c : Crates) :
    System Op Op.Reply Choice World CeremonyCall Expiry CeremonyResult :=
  service c (CeremonyCall.code c)

abbrev CeremonyConfig : Type := Config Op Op.Reply World CeremonyCall CeremonyResult

/-! ### What is noted of a run -/

/-- A call's turn in the sequential run: a store puts its state, a take removes what is there. -/
inductive Turn where
  | store (i : Nat) (d : Drawer) (t : TimedState)
  | take (i : Nat) (d : Drawer)
  | expire (d : Drawer)

/-- The call whose turn it is. -/
def Turn.caller : Turn → Option Nat
  | .store i _ _ => some i
  | .take i _ => some i
  | .expire _ => none

/-- What lies in the caches, and what each take has removed. -/
structure Shelf where
  lies : Drawer → Option TimedState
  removed : Nat → Option TimedState

/-- One turn, in which taking is one removal. -/
def Shelf.turn (s : Shelf) : Turn → Shelf
  | .store _ d t => { s with lies := Function.update s.lies d (some t) }
  | .take i d =>
      { lies := Function.update s.lies d none, removed := Function.update s.removed i (s.lies d) }
  | .expire d => { s with lies := Function.update s.lies d none }

/-- The turns one after the other, from empty caches on. -/
def sequential (turns : List Turn) : Shelf :=
  turns.foldl Shelf.turn { lies := fun _ => none, removed := fun _ => none }

/-- The history of a run. -/
structure CeremonyNotes where
  /-- The store call whose state lies under the key. -/
  owner : Drawer → Option Nat
  /-- The store call whose state the take found. -/
  found : Nat → Option Nat
  /-- The store call whose state the take's deletion removed. -/
  dropped : Nat → Option Nat
  /-- The stores that succeeded and the takes that could read the cache, in this order. -/
  turns : List Turn

namespace CeremonyNotes

def empty : CeremonyNotes :=
  { owner := fun _ => none, found := fun _ => none, dropped := fun _ => none, turns := [] }

def put (i : Nat) (d : Drawer) (t : TimedState) (h : CeremonyNotes) : CeremonyNotes :=
  { h with owner := Function.update h.owner d (some i), turns := h.turns ++ [.store i d t] }

def missed (i : Nat) (d : Drawer) (h : CeremonyNotes) : CeremonyNotes :=
  { h with turns := h.turns ++ [.take i d] }

def find (i : Nat) (d : Drawer) (h : CeremonyNotes) : CeremonyNotes :=
  { h with found := Function.update h.found i (h.owner d), turns := h.turns ++ [.take i d] }

def drop (i : Nat) (d : Drawer) (h : CeremonyNotes) : CeremonyNotes :=
  { h with
    owner := Function.update h.owner d none
    dropped := Function.update h.dropped i (h.owner d) }

def expire (d : Drawer) (h : CeremonyNotes) : CeremonyNotes :=
  { h with owner := Function.update h.owner d none, turns := h.turns ++ [.expire d] }

section Fields

variable (i : Nat) (d : Drawer) (t : TimedState) (h : CeremonyNotes)

@[simp] theorem put_owner : (h.put i d t).owner = Function.update h.owner d (some i) := rfl

@[simp] theorem put_turns : (h.put i d t).turns = h.turns ++ [.store i d t] := rfl

@[simp] theorem missed_turns : (h.missed i d).turns = h.turns ++ [.take i d] := rfl

@[simp] theorem find_found : (h.find i d).found = Function.update h.found i (h.owner d) := rfl

@[simp] theorem find_turns : (h.find i d).turns = h.turns ++ [.take i d] := rfl

@[simp] theorem drop_owner : (h.drop i d).owner = Function.update h.owner d none := rfl

@[simp] theorem drop_dropped : (h.drop i d).dropped = Function.update h.dropped i (h.owner d) := rfl

@[simp] theorem expire_owner : (h.expire d).owner = Function.update h.owner d none := rfl

@[simp] theorem expire_turns : (h.expire d).turns = h.turns ++ [.expire d] := rfl

end Fields

end CeremonyNotes

/-- What each reply and each expiry adds to the history. -/
def ceremony_watcher : Watcher Op Op.Reply Expiry CeremonyNotes where
  note
    | i, .reg_set k t, .ok () => .put i (.reg k) (.reg t)
    | i, .reg_get k, .ok none => .missed i (.reg k)
    | i, .reg_get k, .ok (some _) => .find i (.reg k)
    | i, .reg_delete k, .ok () => .drop i (.reg k)
    | i, .auth_set k t, .ok () => .put i (.auth k) (.auth t)
    | i, .auth_get k, .ok none => .missed i (.auth k)
    | i, .auth_get k, .ok (some _) => .find i (.auth k)
    | i, .auth_delete k, .ok () => .drop i (.auth k)
    | _, _, _ => id
  moved
    | .reg_state k => .expire (.reg k)
    | .auth_state k => .expire (.auth k)
    | _ => id

/-! ### Taking a state like an atomic removal -/

/-- Every turn is its call's own, and no call has two. -/
structure InTurn (c : Crates) (cfg : CeremonyConfig) (turns : List Turn) : Prop where
  once : (turns.filterMap Turn.caller).Nodup
  stores : ∀ {i : Nat} {d : Drawer} {t : TimedState}, .store i d t ∈ turns →
    ∃ call, cfg.call i = some call ∧ call.drawer c = d ∧ call.state = some t.state
  takes : ∀ {i : Nat} {d : Drawer}, .take i d ∈ turns →
    ∃ call, cfg.call i = some call ∧ call.drawer c = d ∧ call.state = none

/-- A take that has removed this returns it, unless it was too old by the clock the take read. -/
def TakenInTime (log : List ((o : Op) × o.Reply)) : Option TimedState → Option CeremonyState → Prop
  | none, r => r = none
  | some t, r => ∃ now : Time, ⟨.now, now⟩ ∈ log ∧ r = in_time now t

/-- What the history of a run shows when taking is as good as one removal. -/
structure TakenOnce (c : Crates) (cfg : CeremonyConfig) (h : CeremonyNotes) : Prop where
  /-- No stored state is returned by two takes. -/
  single : ∀ {i j s : Nat} {a b : CeremonyState}, h.found i = some s → h.found j = some s →
    cfg.result i = some (.taken (some a)) → cfg.result j = some (.taken (some b)) → i = j
  /-- A take deletes nothing but the state it found. -/
  spared : ∀ {i s : Nat}, h.dropped i = some s → h.found i = some s
  /-- The results are those of the sequential run of the turns. -/
  turns : InTurn c cfg h.turns
  results : ∀ {i : Nat} {r : Option CeremonyState}, cfg.result i = some (.taken r) →
    TakenInTime (cfg.log i) ((sequential h.turns).removed i) r

/-! ### When the caches serve a state once -/

/-- A take about to delete the key. -/
def drops (d : Drawer) : CeremonyCall → Op → Bool
  | _, .reg_delete k => d == .reg k
  | _, .auth_delete k => d == .auth k
  | _, _ => false

/-- A take's deletion does not fail, and while a take is about to delete a key nothing is stored
under it and no other take finds an entry there. -/
def one_at_a_time (cfg : CeremonyConfig) (ev : Basis.Event Choice CeremonyCall Expiry) : Bool :=
  match ev with
  | .step i ch =>
      match cfg.next i with
      | some (.reg_delete _) => ch != .fail
      | some (.auth_delete _) => ch != .fail
      | some (.reg_set k _) => ch == .fail || nobody_about cfg (drops (.reg k))
      | some (.auth_set k _) => ch == .fail || nobody_about cfg (drops (.auth k))
      | some (.reg_get k) => ch == .fail || (cfg.shared.reg_store k).isNone ||
          nobody_about cfg (drops (.reg k))
      | some (.auth_get k) => ch == .fail || (cfg.shared.auth_store k).isNone ||
          nobody_about cfg (drops (.auth k))
      | _ => true
  | _ => true

/-! ### The calls, in phases -/

inductive CeremonyPhase where
  | start
  /-- A store that has read the clock. -/
  | clocked (t : TimedState)
  | stored
  /-- A take between its two operations. -/
  | read (t : TimedState)
  /-- The take has deleted the key. -/
  | aging (t : TimedState)
  | taken (r : Option CeremonyState)

inductive CeremonyStep (c : Crates) :
    CeremonyCall → CeremonyPhase → (o : Op) → o.Reply → CeremonyPhase → Prop
  | clock {call : CeremonyCall} {state : CeremonyState} {now : Time} (h : call.state = some state) :
      CeremonyStep c call .start .now now (.clocked ⟨(now / seconds 1).toNat, state⟩)
  | put_reg {user_id : Uuid} {state : PasskeyRegistration} {t : TimedRegState}
      {r : Except Failed Unit} (h : t.state = state) :
      CeremonyStep c (.store_reg user_id state) (.clocked (.reg t))
        (.reg_set (c.uuid_to_string user_id) t) r .stored
  | put_auth {username : String} {state : PasskeyAuthentication} {t : TimedAuthState}
      {r : Except Failed Unit} (h : t.state = state) :
      CeremonyStep c (.store_auth username state) (.clocked (.auth t)) (.auth_set username t) r
        .stored
  | reg_failed {user_id : Uuid} {e : Failed} :
      CeremonyStep c (.take_reg user_id) .start (.reg_get (c.uuid_to_string user_id)) (.error e)
        (.taken none)
  | reg_missed {user_id : Uuid} :
      CeremonyStep c (.take_reg user_id) .start (.reg_get (c.uuid_to_string user_id)) (.ok none)
        (.taken none)
  | reg_found {user_id : Uuid} {t : TimedRegState} :
      CeremonyStep c (.take_reg user_id) .start (.reg_get (c.uuid_to_string user_id)) (.ok (some t))
        (.read (.reg t))
  | reg_dropped {user_id : Uuid} {t : TimedState} {r : Except Failed Unit} :
      CeremonyStep c (.take_reg user_id) (.read t) (.reg_delete (c.uuid_to_string user_id)) r
        (.aging t)
  | auth_failed {username : String} {e : Failed} :
      CeremonyStep c (.take_auth username) .start (.auth_get username) (.error e) (.taken none)
  | auth_missed {username : String} :
      CeremonyStep c (.take_auth username) .start (.auth_get username) (.ok none) (.taken none)
  | auth_found {username : String} {t : TimedAuthState} :
      CeremonyStep c (.take_auth username) .start (.auth_get username) (.ok (some t))
        (.read (.auth t))
  | auth_dropped {username : String} {t : TimedState} {r : Except Failed Unit} :
      CeremonyStep c (.take_auth username) (.read t) (.auth_delete username) r (.aging t)
  | aged {call : CeremonyCall} {t : TimedState} {now : Time} :
      CeremonyStep c call (.aging t) .now now (.taken (in_time now t))

/-- Storing and taking ceremony states, as a protocol. -/
abbrev storing (c : Crates) : Protocol Op Op.Reply CeremonyCall CeremonyResult where
  Phase := CeremonyPhase
  start _ := .start
  Step := CeremonyStep c
  Final _ ph
    | .stored => ph = .stored
    | .taken r => ph = .taken r

theorem in_time_reg (now : Time) (t : TimedRegState) :
    in_time now (.reg t) =
      (if (now / seconds 1).toNat - t.issued_at_secs > CHALLENGE_TTL then none
        else some t.state).map .reg := by
  unfold in_time TimedState.reg
  split <;> rfl

theorem in_time_auth (now : Time) (t : TimedAuthState) :
    in_time now (.auth t) =
      (if (now / seconds 1).toNat - t.issued_at_secs > CHALLENGE_TTL then none
        else some t.state).map .auth := by
  unfold in_time TimedState.auth
  split <;> rfl

theorem storing_follows (c : Crates) (call : CeremonyCall) :
    (storing c).Follows call ((ceremonies c).code call) := by
  cases call with
  | store_reg user_id state =>
      intro (now : Time)
      refine ⟨_, .clock rfl, ?_⟩
      intro r
      exact ⟨_, .put_reg (t := ⟨(now / seconds 1).toNat, state⟩) rfl, rfl⟩
  | store_auth username state =>
      intro (now : Time)
      refine ⟨_, .clock rfl, ?_⟩
      intro r
      exact ⟨_, .put_auth (t := ⟨(now / seconds 1).toNat, state⟩) rfl, rfl⟩
  | take_reg user_id =>
      intro got
      cases got with
      | error e => exact ⟨_, .reg_failed, rfl⟩
      | ok found =>
          cases found with
          | none => exact ⟨_, .reg_missed, rfl⟩
          | some t =>
              refine ⟨_, .reg_found, ?_⟩
              intro r
              refine ⟨_, .reg_dropped, ?_⟩
              intro now
              exact ⟨_, .aged, (in_time_reg now t).symm ▸ rfl⟩
  | take_auth username =>
      intro got
      cases got with
      | error e => exact ⟨_, .auth_failed, rfl⟩
      | ok found =>
          cases found with
          | none => exact ⟨_, .auth_missed, rfl⟩
          | some t =>
              refine ⟨_, .auth_found, ?_⟩
              intro r
              refine ⟨_, .auth_dropped, ?_⟩
              intro now
              exact ⟨_, .aged, (in_time_auth now t).symm ▸ rfl⟩

/-! ### What one step does -/

theorem drawer_reg (w : World) (k : String) (x : Option TimedRegState) :
    World.drawer { w with reg_store := Function.update w.reg_store k x } =
      Function.update w.drawer (.reg k) (x.map .reg) := by
  funext d
  cases d with
  | reg l =>
      by_cases h : l = k
      · subst h
        simp [World.drawer]
      · rw [Function.update_of_ne (by simpa using h)]
        simp [World.drawer, Function.update_of_ne h]
  | auth l => rfl

theorem drawer_auth (w : World) (k : String) (x : Option TimedAuthState) :
    World.drawer { w with auth_store := Function.update w.auth_store k x } =
      Function.update w.drawer (.auth k) (x.map .auth) := by
  funext d
  cases d with
  | reg l => rfl
  | auth l =>
      by_cases h : l = k
      · subst h
        simp [World.drawer]
      · rw [Function.update_of_ne (by simpa using h)]
        simp [World.drawer, Function.update_of_ne h]

/-- What call `i` does to the caches and the history in one exchange `x` on the key `d`. -/
inductive Deed (cfg : CeremonyConfig) (i : Nat) (d : Drawer) (state : Option CeremonyState)
    (w' : World) (h : CeremonyNotes) (x : (o : Op) × o.Reply) :
    CeremonyPhase → CeremonyPhase → CeremonyNotes → Prop
  | clock {t : TimedState} (hstate : state = some t.state)
      (hw : w'.drawer = cfg.shared.drawer) : Deed cfg i d state w' h x .start (.clocked t) h
  | put {t : TimedState} (halone : nobody_about cfg (drops d) = true)
      (hstate : state = some t.state)
      (hw : w'.drawer = Function.update cfg.shared.drawer d (some t)) :
      Deed cfg i d state w' h x (.clocked t) .stored (h.put i d t)
  | put_failed {t : TimedState} (hw : w'.drawer = cfg.shared.drawer) :
      Deed cfg i d state w' h x (.clocked t) .stored h
  | failed (hstate : state = none) (hw : w'.drawer = cfg.shared.drawer) :
      Deed cfg i d state w' h x .start (.taken none) h
  | missed (hstate : state = none) (hw : w'.drawer = cfg.shared.drawer)
      (hd : cfg.shared.drawer d = none) :
      Deed cfg i d state w' h x .start (.taken none) (h.missed i d)
  | found {t : TimedState} (halone : nobody_about cfg (drops d) = true) (hstate : state = none)
      (hw : w'.drawer = cfg.shared.drawer) (hd : cfg.shared.drawer d = some t) :
      Deed cfg i d state w' h x .start (.read t) (h.find i d)
  | dropped {t : TimedState} (hw : w'.drawer = Function.update cfg.shared.drawer d none) :
      Deed cfg i d state w' h x (.read t) (.aging t) (h.drop i d)
  | aged {t : TimedState} {now : Time} (hw : w'.drawer = cfg.shared.drawer)
      (hnow : x = ⟨.now, now⟩) : Deed cfg i d state w' h x (.aging t) (.taken (in_time now t)) h

theorem answer_reg_got {c : Crates} {i : Nat} {ch : Choice} {k : String} {w w' : World}
    {x : Option TimedRegState} (h : World.answer c i (.reg_get k) ch w = some (w', Except.ok x)) :
    ch = .go ∧ w' = w ∧ w.reg_store k = x := by
  rcases World.doneOr_iff.mp h with ⟨hgo, heq⟩ | ⟨-, heq⟩
  · exact ⟨hgo, congrArg Prod.fst heq, (Except.ok.inj (congrArg Prod.snd heq)).symm⟩
  · cases congrArg Prod.snd heq

theorem answer_auth_got {c : Crates} {i : Nat} {ch : Choice} {k : String} {w w' : World}
    {x : Option TimedAuthState} (h : World.answer c i (.auth_get k) ch w = some (w', Except.ok x)) :
    ch = .go ∧ w' = w ∧ w.auth_store k = x := by
  rcases World.doneOr_iff.mp h with ⟨hgo, heq⟩ | ⟨-, heq⟩
  · exact ⟨hgo, congrArg Prod.fst heq, (Except.ok.inj (congrArg Prod.snd heq)).symm⟩
  · cases congrArg Prod.snd heq

theorem CeremonyStep.deed {c : Crates} {cfg : CeremonyConfig} {i : Nat} {ch : Choice}
    {call : CeremonyCall} {ph ph' : CeremonyPhase} {o : Op} {r : o.Reply} {w' : World}
    (hstep : CeremonyStep c call ph o r ph') (hnext : cfg.next i = some o)
    (hans : World.answer c i o ch cfg.shared = some (w', r))
    (hone : one_at_a_time cfg (.step i ch) = true) (h : CeremonyNotes) :
    Deed cfg i (call.drawer c) call.state w' h ⟨o, r⟩ ph ph' (ceremony_watcher.note i o r h) := by
  unfold one_at_a_time at hone
  dsimp only at hone
  rw [hnext] at hone
  cases hstep with
  | clock hstate =>
      obtain ⟨-, rfl⟩ := World.answer_now hans
      exact .clock hstate rfl
  | aged =>
      obtain ⟨-, rfl⟩ := World.answer_now hans
      exact .aged rfl rfl
  | put_reg hstate =>
      rcases World.doneOr_iff.mp hans with ⟨rfl, heq⟩ | ⟨rfl, heq⟩ <;> cases heq
      · exact .put (by simpa [CeremonyCall.drawer] using hone)
          (by simp [CeremonyCall.state, TimedState.reg, hstate]) (drawer_reg _ _ _)
      · exact .put_failed rfl
  | put_auth hstate =>
      rcases World.doneOr_iff.mp hans with ⟨rfl, heq⟩ | ⟨rfl, heq⟩ <;> cases heq
      · exact .put (by simpa [CeremonyCall.drawer] using hone)
          (by simp [CeremonyCall.state, TimedState.auth, hstate]) (drawer_auth _ _ _)
      · exact .put_failed rfl
  | reg_failed =>
      rcases World.doneOr_iff.mp hans with ⟨rfl, heq⟩ | ⟨rfl, heq⟩ <;> cases heq
      exact .failed rfl rfl
  | auth_failed =>
      rcases World.doneOr_iff.mp hans with ⟨rfl, heq⟩ | ⟨rfl, heq⟩ <;> cases heq
      exact .failed rfl rfl
  | @reg_missed user_id =>
      obtain ⟨-, rfl, hr⟩ := answer_reg_got hans
      exact .missed rfl rfl (by simp [CeremonyCall.drawer, World.drawer, hr])
  | @auth_missed username =>
      obtain ⟨-, rfl, hr⟩ := answer_auth_got hans
      exact .missed rfl rfl (by simp [CeremonyCall.drawer, World.drawer, hr])
  | @reg_found user_id t =>
      obtain ⟨hgo, rfl, hr⟩ := answer_reg_got hans
      exact .found (by simpa [CeremonyCall.drawer, hgo, hr] using hone) rfl rfl
        (by simp [CeremonyCall.drawer, World.drawer, hr])
  | @auth_found username t =>
      obtain ⟨hgo, rfl, hr⟩ := answer_auth_got hans
      exact .found (by simpa [CeremonyCall.drawer, hgo, hr] using hone) rfl rfl
        (by simp [CeremonyCall.drawer, World.drawer, hr])
  | reg_dropped =>
      rcases World.doneOr_iff.mp hans with ⟨rfl, heq⟩ | ⟨rfl, heq⟩ <;> cases heq
      · exact .dropped (drawer_reg _ _ _)
      · cases hone
  | auth_dropped =>
      rcases World.doneOr_iff.mp hans with ⟨rfl, heq⟩ | ⟨rfl, heq⟩ <;> cases heq
      · exact .dropped (drawer_auth _ _ _)
      · cases hone

/-! ### The sequential run -/

section Sequential

variable (turns : List Turn) (i j : Nat) (d : Drawer) (t : TimedState)

theorem sequential_snoc (u : Turn) : sequential (turns ++ [u]) = (sequential turns).turn u := by
  simp [sequential]

@[simp] theorem lies_store : (sequential (turns ++ [.store i d t])).lies =
    Function.update (sequential turns).lies d (some t) := by
  rw [sequential_snoc]
  rfl

@[simp] theorem lies_take : (sequential (turns ++ [.take i d])).lies =
    Function.update (sequential turns).lies d none := by
  rw [sequential_snoc]
  rfl

@[simp] theorem lies_expire : (sequential (turns ++ [.expire d])).lies =
    Function.update (sequential turns).lies d none := by
  rw [sequential_snoc]
  rfl

@[simp] theorem removed_store : (sequential (turns ++ [.store i d t])).removed =
    (sequential turns).removed := by
  rw [sequential_snoc]
  rfl

@[simp] theorem removed_expire : (sequential (turns ++ [.expire d])).removed =
    (sequential turns).removed := by
  rw [sequential_snoc]
  rfl

@[simp] theorem removed_take : (sequential (turns ++ [.take i d])).removed =
    Function.update (sequential turns).removed i ((sequential turns).lies d) := by
  rw [sequential_snoc]
  rfl

end Sequential

/-! ### The invariant -/

namespace CeremonyPhase

/-- The call has had its turn, if it has one. -/
def acted : CeremonyPhase → Prop
  | .start | .clocked _ => False
  | _ => True

/-- What the call has removed, and what it makes of it. -/
def Removed (log : List ((o : Op) × o.Reply)) (got : Option TimedState) : CeremonyPhase → Prop
  | .read t | .aging t => got = some t
  | .taken r => TakenInTime log got r
  | _ => True

end CeremonyPhase

section Invariant

variable {c : Crates}

abbrev CeremonyGhost (c : Crates) : Type := (storing c).Ghost

/-- Call `i` is about to delete the key `d`. -/
def Reading (gs : List (CeremonyGhost c)) (i : Nat) (d : Drawer) : Prop :=
  ∃ g t, gs[i]? = some g ∧ g.phase = .read t ∧ g.call.drawer c = d

/-- Call `s` has stored its state under the key `d`. -/
def HasStored (gs : List (CeremonyGhost c)) (s : Nat) (d : Drawer) : Prop :=
  ∃ g, gs[s]? = some g ∧ g.phase = .stored ∧ g.call.drawer c = d

/-- Call `i` has had its turn. -/
def HasActed (gs : List (CeremonyGhost c)) (i : Nat) : Prop :=
  ∃ g, gs[i]? = some g ∧ g.phase.acted

/-- What the caches, the history and the calls have to do with each other. -/
structure CeremoniesKept (w : World) (h : CeremonyNotes) (gs : List (CeremonyGhost c)) :
    Prop where
  alone : ∀ {i j : Nat} {d : Drawer}, Reading gs i d → Reading gs j d → i = j
  /-- Nobody is about to delete the key: it is as in the sequential run. -/
  agreed : ∀ {d : Drawer}, (∀ i, ¬ Reading gs i d) → (sequential h.turns).lies d = w.drawer d
  /-- In the sequential run the take has already removed it. -/
  removing : ∀ {i : Nat} {d : Drawer}, Reading gs i d → (sequential h.turns).lies d = none
  reading : ∀ {i : Nat} {d : Drawer}, Reading gs i d →
    h.owner d = none ∨ h.owner d = h.found i
  owner : ∀ {d : Drawer} {s : Nat}, h.owner d = some s → HasStored gs s d
  /-- What lies under a key has been found only by a take that is about to delete it. -/
  fresh : ∀ {d : Drawer} {s j : Nat}, h.owner d = some s → h.found j = some s → Reading gs j d
  found : ∀ {i s : Nat}, h.found i = some s → HasActed gs i ∧ ∃ d, HasStored gs s d
  single : ∀ {i j s : Nat}, h.found i = some s → h.found j = some s → i = j
  spared : ∀ {i s : Nat}, h.dropped i = some s → HasActed gs i ∧ h.found i = some s
  removed : ∀ {i : Nat} {g : CeremonyGhost c}, gs[i]? = some g →
    g.phase.Removed g.log ((sequential h.turns).removed i)
  idle : ∀ {i : Nat}, ¬ HasActed gs i → (sequential h.turns).removed i = none
  once : (h.turns.filterMap Turn.caller).Nodup
  turns : ∀ {i : Nat}, i ∈ h.turns.filterMap Turn.caller → HasActed gs i
  stores : ∀ {i : Nat} {d : Drawer} {t : TimedState}, .store i d t ∈ h.turns →
    ∃ g, gs[i]? = some g ∧ g.call.drawer c = d ∧ g.call.state = some t.state
  takes : ∀ {i : Nat} {d : Drawer}, .take i d ∈ h.turns →
    ∃ g, gs[i]? = some g ∧ g.call.drawer c = d ∧ g.call.state = none

/-! ### The calls after a step of call `i` -/

section Set

variable {gs : List (CeremonyGhost c)} {i j s : Nat} {d : Drawer} {call : CeremonyCall}
  {log log' : List ((o : Op) × o.Reply)} {ph ph' : CeremonyPhase}

theorem reading_set_other (hij : j ≠ i) :
    Reading (gs.set i ⟨call, log, ph⟩) j d ↔ Reading gs j d := by
  unfold Reading
  rw [List.getElem?_set_ne (Ne.symm hij)]

theorem reading_set_self (hg : gs[i]? = some ⟨call, log, ph⟩) :
    Reading (gs.set i ⟨call, log', ph'⟩) i d ↔ (∃ t, ph' = .read t) ∧ call.drawer c = d := by
  unfold Reading
  rw [List.getElem?_set_self (List.getElem?_eq_some_iff.mp hg).1]
  constructor
  · intro hpost
    obtain ⟨x, t, hx, hph, hd⟩ := hpost
    obtain rfl := Option.some.inj hx
    exact ⟨⟨t, hph⟩, hd⟩
  · intro hpost
    obtain ⟨⟨t, hph⟩, hd⟩ := hpost
    exact ⟨_, t, rfl, hph, hd⟩

/-- Whoever is about to delete a key afterwards was so before, or is the acting call. -/
theorem Reading.before (h : Reading (gs.set i ⟨call, log', ph'⟩) j d)
    (hg : gs[i]? = some ⟨call, log, ph⟩) (hph : ∀ t, ph' ≠ .read t) : j ≠ i ∧ Reading gs j d := by
  by_cases hij : j = i
  · subst hij
    obtain ⟨⟨t, ht⟩, -⟩ := (reading_set_self hg).mp h
    exact absurd ht (hph t)
  · exact ⟨hij, (reading_set_other hij).mp h⟩

theorem Reading.after (h : Reading gs j d) (hg : gs[i]? = some ⟨call, log, ph⟩)
    (hph : ∀ t, ph ≠ .read t) : Reading (gs.set i ⟨call, log', ph'⟩) j d := by
  obtain ⟨x, t, hx, hxph, hd⟩ := h
  have hij : j ≠ i := by
    intro hij
    subst hij
    obtain rfl := Option.some.inj (hg.symm.trans hx)
    exact hph t hxph
  exact (reading_set_other hij).mpr ⟨x, t, hx, hxph, hd⟩

theorem HasStored.after (h : HasStored gs s d) (hg : gs[i]? = some ⟨call, log, ph⟩)
    (hph : ph ≠ .stored) : HasStored (gs.set i ⟨call, log', ph'⟩) s d := by
  obtain ⟨x, hx, hxph, hd⟩ := h
  refine ⟨x, ?_, hxph, hd⟩
  rw [List.getElem?_set_ne, hx]
  intro his
  subst his
  obtain rfl := Option.some.inj (hg.symm.trans hx)
  exact hph hxph

theorem hasActed_self (hg : gs[i]? = some ⟨call, log, ph⟩) (hph : ph'.acted) :
    HasActed (gs.set i ⟨call, log', ph'⟩) i :=
  ⟨_, List.getElem?_set_self (List.getElem?_eq_some_iff.mp hg).1, hph⟩

theorem HasActed.after (h : HasActed gs j) (hg : gs[i]? = some ⟨call, log, ph⟩)
    (hph : ph.acted → ph'.acted) : HasActed (gs.set i ⟨call, log', ph'⟩) j := by
  obtain ⟨x, hx, hact⟩ := h
  by_cases hij : j = i
  · subst hij
    obtain rfl := Option.some.inj (hg.symm.trans hx)
    exact hasActed_self hg (hph hact)
  · exact ⟨x, by rw [List.getElem?_set_ne (Ne.symm hij), hx], hact⟩

/-- A call that has not acted is not among those that have. -/
theorem HasActed.ne (h : HasActed gs j) (hg : gs[i]? = some ⟨call, log, ph⟩) (hph : ¬ ph.acted) :
    j ≠ i := by
  intro hij
  subst hij
  obtain ⟨x, hx, hact⟩ := h
  obtain rfl := Option.some.inj (hg.symm.trans hx)
  exact hph hact

/-- Calls stay what they are. -/
theorem call_after {p : CeremonyCall → Prop} (h : ∃ x, gs[j]? = some x ∧ p x.call)
    (hg : gs[i]? = some ⟨call, log, ph⟩) :
    ∃ x, (gs.set i ⟨call, log', ph'⟩)[j]? = some x ∧ p x.call := by
  obtain ⟨x, hx, hp⟩ := h
  by_cases hij : j = i
  · subst hij
    obtain rfl := Option.some.inj (hg.symm.trans hx)
    exact ⟨_, List.getElem?_set_self (List.getElem?_eq_some_iff.mp hg).1, hp⟩
  · exact ⟨x, by rw [List.getElem?_set_ne (Ne.symm hij), hx], hp⟩

end Set

/-! ### Every move keeps the invariant -/

namespace CeremoniesKept

variable {w w' : World} {h : CeremonyNotes} {gs : List (CeremonyGhost c)} {i : Nat}
  {call : CeremonyCall} {log log' : List ((o : Op) × o.Reply)} {ph ph' : CeremonyPhase}

/-- What `Removed` says of the other calls does not change while their removals do not. -/
theorem removed_set (hI : CeremoniesKept w h gs) (hg : gs[i]? = some ⟨call, log, ph⟩)
    {got : Nat → Option TimedState}
    (hother : ∀ j, j ≠ i → got j = (sequential h.turns).removed j) (hself : ph'.Removed log' (got i))
    {j : Nat} {x : CeremonyGhost c} (hx : (gs.set i ⟨call, log', ph'⟩)[j]? = some x) :
    x.phase.Removed x.log (got j) := by
  rcases get_set_cases hx with ⟨rfl, rfl⟩ | ⟨hne, hx⟩
  · exact hself
  · rw [hother j hne]
    exact hI.removed hx

/-- A step that touches neither the caches nor the history. -/
theorem quiet (hI : CeremoniesKept w h gs) (hg : gs[i]? = some ⟨call, log, ph⟩)
    (hw : w'.drawer = w.drawer) (hread : ∀ t, ph ≠ .read t) (hread' : ∀ t, ph' ≠ .read t)
    (hstored : ph ≠ .stored) (hact : ph.acted → ph'.acted)
    (hremoved : ph'.Removed log' ((sequential h.turns).removed i)) :
    CeremoniesKept w' h (gs.set i ⟨call, log', ph'⟩) where
  alone h₁ h₂ := hI.alone (h₁.before hg hread').2 (h₂.before hg hread').2
  agreed hnone := by
    rw [hw]
    exact hI.agreed fun j hj => hnone j (hj.after hg hread)
  removing hj := hI.removing (hj.before hg hread').2
  reading hj := hI.reading (hj.before hg hread').2
  owner ho := (hI.owner ho).after hg hstored
  fresh ho hf := (hI.fresh ho hf).after hg hread
  found hf := by
    obtain ⟨hacted, d, hs⟩ := hI.found hf
    exact ⟨hacted.after hg hact, d, hs.after hg hstored⟩
  single := hI.single
  spared hd := by
    obtain ⟨hacted, hf⟩ := hI.spared hd
    exact ⟨hacted.after hg hact, hf⟩
  removed hx := hI.removed_set hg (fun _ _ => rfl) hremoved hx
  idle hn := hI.idle fun hacted => hn (hacted.after hg hact)
  once := hI.once
  turns hj := (hI.turns hj).after hg hact
  stores hm := call_after (p := fun a => a.drawer c = _ ∧ a.state = _) (hI.stores hm) hg
  takes hm := call_after (p := fun a => a.drawer c = _ ∧ a.state = _) (hI.takes hm) hg

/-- A call that has not acted has no turn yet. -/
theorem not_in_turns (hI : CeremoniesKept w h gs) (hg : gs[i]? = some ⟨call, log, ph⟩)
    (hph : ¬ ph.acted) : i ∉ h.turns.filterMap Turn.caller := by
  intro hmem
  exact (hI.turns hmem).ne hg hph rfl

theorem not_found (hI : CeremoniesKept w h gs) (hg : gs[i]? = some ⟨call, log, ph⟩)
    (hph : ¬ ph.acted) {j s : Nat} (hf : h.found j = some s) : j ≠ i :=
  (hI.found hf).1.ne hg hph

theorem not_stored (hg : gs[i]? = some ⟨call, log, ph⟩)
    (hph : ¬ ph.acted) {d : Drawer} (hs : HasStored gs i d) : False := by
  obtain ⟨x, hx, hxph, -⟩ := hs
  obtain rfl := Option.some.inj (hg.symm.trans hx)
  rw [show ph = .stored from hxph] at hph
  exact hph trivial

theorem not_removed (hI : CeremoniesKept w h gs) (hg : gs[i]? = some ⟨call, log, ph⟩)
    (hph : ¬ ph.acted) : (sequential h.turns).removed i = none :=
  hI.idle fun hacted => hacted.ne hg hph rfl

/-- A store puts its state under the key. -/
theorem put (hI : CeremoniesKept w h gs) {t : TimedState}
    (hg : gs[i]? = some ⟨call, log, .clocked t⟩) (hstate : call.state = some t.state)
    (halone : ∀ j, ¬ Reading gs j (call.drawer c))
    (hw : w'.drawer = Function.update w.drawer (call.drawer c) (some t)) :
    CeremoniesKept w' (h.put i (call.drawer c) t) (gs.set i ⟨call, log', .stored⟩) where
  alone h₁ h₂ := hI.alone (h₁.before hg (by simp)).2 (h₂.before hg (by simp)).2
  agreed {d} hnone := by
    rw [hw, CeremonyNotes.put_turns, lies_store]
    by_cases hd : d = call.drawer c
    · rw [hd, Function.update_self, Function.update_self]
    · rw [Function.update_of_ne hd, Function.update_of_ne hd]
      exact hI.agreed fun j hj => hnone j (hj.after hg (by simp))
  removing {j d} hj := by
    have hold := (hj.before hg (by simp)).2
    have hd : d ≠ call.drawer c := by
      intro hd
      exact halone j (hd ▸ hold)
    rw [CeremonyNotes.put_turns, lies_store, Function.update_of_ne hd]
    exact hI.removing hold
  reading {j d} hj := by
    have hold := (hj.before hg (by simp)).2
    have hd : d ≠ call.drawer c := by
      intro hd
      exact halone j (hd ▸ hold)
    rw [CeremonyNotes.put_owner, Function.update_of_ne hd]
    exact hI.reading hold
  owner {d s} ho := by
    by_cases hd : d = call.drawer c
    · rw [CeremonyNotes.put_owner, hd, Function.update_self] at ho
      obtain rfl := Option.some.inj ho
      exact ⟨_, List.getElem?_set_self (List.getElem?_eq_some_iff.mp hg).1, rfl, hd.symm⟩
    · rw [CeremonyNotes.put_owner, Function.update_of_ne hd] at ho
      exact (hI.owner ho).after hg (by simp)
  fresh {d s j} ho hf := by
    by_cases hd : d = call.drawer c
    · rw [CeremonyNotes.put_owner, hd, Function.update_self] at ho
      obtain rfl := Option.some.inj ho
      -- the call has only now stored its state, so nobody has found it
      obtain ⟨-, d', hs⟩ := hI.found hf
      exact (not_stored hg (by simp [CeremonyPhase.acted]) hs).elim
    · rw [CeremonyNotes.put_owner, Function.update_of_ne hd] at ho
      exact (hI.fresh ho hf).after hg (by simp)
  found hf := by
    obtain ⟨hacted, d, hs⟩ := hI.found hf
    exact ⟨hacted.after hg fun _ => trivial, d, hs.after hg (by simp)⟩
  single := hI.single
  spared hd := by
    obtain ⟨hacted, hf⟩ := hI.spared hd
    exact ⟨hacted.after hg fun _ => trivial, hf⟩
  removed hx := by
    rw [CeremonyNotes.put_turns, removed_store]
    exact hI.removed_set hg (fun _ _ => rfl) (by trivial) hx
  idle hn := by
    rw [CeremonyNotes.put_turns, removed_store]
    exact hI.idle fun hacted => hn (hacted.after hg fun _ => trivial)
  once := by
    have hnot := hI.not_in_turns hg (by simp [CeremonyPhase.acted])
    rw [CeremonyNotes.put_turns, List.filterMap_append]
    exact List.nodup_append.mpr ⟨hI.once, by simp [Turn.caller], fun a ha b hb hab =>
      hnot (by rw [← List.mem_singleton.mp hb, ← hab]; exact ha)⟩
  turns hj := by
    rw [CeremonyNotes.put_turns, List.filterMap_append, List.mem_append] at hj
    rcases hj with hj | hj
    · exact (hI.turns hj).after hg fun _ => trivial
    · rw [List.mem_singleton.mp hj]
      exact hasActed_self hg trivial
  stores hm := by
    refine call_after (p := fun a => a.drawer c = _ ∧ a.state = _) ?_ hg
    rcases List.mem_append.mp hm with hm | hm
    · exact hI.stores hm
    · simp only [List.mem_singleton, Turn.store.injEq] at hm
      obtain ⟨rfl, rfl, rfl⟩ := hm
      exact ⟨_, hg, rfl, hstate⟩
  takes hm := by
    refine call_after (p := fun a => a.drawer c = _ ∧ a.state = _) ?_ hg
    rcases List.mem_append.mp hm with hm | hm
    · exact hI.takes hm
    · simp at hm

/-- A take has its turn: whatever it finds, it is the first. -/
theorem take_turn (hI : CeremoniesKept w h gs) (hg : gs[i]? = some ⟨call, log, .start⟩)
    (hstate : call.state = none) (log' : List ((o : Op) × o.Reply)) (hact : ph'.acted) :
    ((h.turns ++ [Turn.take i (call.drawer c)]).filterMap Turn.caller).Nodup ∧
      (∀ {j : Nat}, j ∈ (h.turns ++ [Turn.take i (call.drawer c)]).filterMap Turn.caller →
        HasActed (gs.set i ⟨call, log', ph'⟩) j) ∧
      (∀ {j : Nat} {d : Drawer} {t : TimedState},
        .store j d t ∈ h.turns ++ [Turn.take i (call.drawer c)] →
        ∃ x, (gs.set i ⟨call, log', ph'⟩)[j]? = some x ∧ x.call.drawer c = d ∧
          x.call.state = some t.state) ∧
      ∀ {j : Nat} {d : Drawer}, .take j d ∈ h.turns ++ [Turn.take i (call.drawer c)] →
        ∃ x, (gs.set i ⟨call, log', ph'⟩)[j]? = some x ∧ x.call.drawer c = d ∧
          x.call.state = none := by
  have hnot := hI.not_in_turns hg (by simp [CeremonyPhase.acted])
  refine ⟨?_, ?_, ?_, ?_⟩
  · rw [List.filterMap_append]
    exact List.nodup_append.mpr ⟨hI.once, by simp [Turn.caller], fun a ha b hb hab =>
      hnot (by rw [← List.mem_singleton.mp hb, ← hab]; exact ha)⟩
  · intro j hj
    rw [List.filterMap_append, List.mem_append] at hj
    rcases hj with hj | hj
    · exact (hI.turns hj).after hg fun _ => hact
    · rw [List.mem_singleton.mp hj]
      exact hasActed_self hg hact
  · intro j d t hm
    refine call_after (p := fun a => a.drawer c = _ ∧ a.state = _) ?_ hg
    rcases List.mem_append.mp hm with hm | hm
    · exact hI.stores hm
    · simp at hm
  · intro j d hm
    refine call_after (p := fun a => a.drawer c = _ ∧ a.state = _) ?_ hg
    rcases List.mem_append.mp hm with hm | hm
    · exact hI.takes hm
    · simp only [List.mem_singleton, Turn.take.injEq] at hm
      obtain ⟨rfl, rfl⟩ := hm
      exact ⟨_, hg, rfl, hstate⟩

/-- A take that finds nothing removes nothing in the sequential run either. -/
theorem missed (hI : CeremoniesKept w h gs) (hg : gs[i]? = some ⟨call, log, .start⟩)
    (hstate : call.state = none) (hw : w'.drawer = w.drawer)
    (hnothing : w.drawer (call.drawer c) = none) :
    CeremoniesKept w' (h.missed i (call.drawer c)) (gs.set i ⟨call, log', .taken none⟩) := by
  have hlies : (sequential h.turns).lies (call.drawer c) = none := by
    by_cases hread : ∃ j, Reading gs j (call.drawer c)
    · obtain ⟨j, hj⟩ := hread
      exact hI.removing hj
    · rw [hI.agreed fun j hj => hread ⟨j, hj⟩, hnothing]
  have hremoved : (sequential (h.missed i (call.drawer c)).turns).removed =
      (sequential h.turns).removed := by
    rw [CeremonyNotes.missed_turns, removed_take, hlies,
      ← hI.not_removed hg (by simp [CeremonyPhase.acted]), Function.update_eq_self]
  have hsame : (sequential (h.missed i (call.drawer c)).turns).lies =
      (sequential h.turns).lies := by
    rw [CeremonyNotes.missed_turns, lies_take, ← hlies, Function.update_eq_self]
  have hrest : CeremoniesKept w' h (gs.set i ⟨call, log', .taken none⟩) :=
    hI.quiet hg hw (by simp) (by simp) (by simp) (fun _ => trivial) (by
      rw [hI.not_removed hg (by simp [CeremonyPhase.acted])]
      rfl)
  obtain ⟨honce, hturns, hstores, htakes⟩ :=
    hI.take_turn hg hstate log' (show CeremonyPhase.acted (.taken none) from trivial)
  exact
    { alone := hrest.alone
      agreed := by
        rw [hsame]
        exact hrest.agreed
      removing := by
        rw [hsame]
        exact hrest.removing
      reading := hrest.reading
      owner := hrest.owner
      fresh := hrest.fresh
      found := hrest.found
      single := hrest.single
      spared := hrest.spared
      removed := by
        rw [hremoved]
        exact hrest.removed
      idle := by
        rw [hremoved]
        exact hrest.idle
      once := honce
      turns := hturns
      stores := hstores
      takes := htakes }

/-- A take finds a state, which the sequential run removes at once. -/
theorem find (hI : CeremoniesKept w h gs) {t : TimedState}
    (hg : gs[i]? = some ⟨call, log, .start⟩) (hstate : call.state = none)
    (halone : ∀ j, ¬ Reading gs j (call.drawer c)) (hw : w'.drawer = w.drawer)
    (hlies : w.drawer (call.drawer c) = some t) :
    CeremoniesKept w' (h.find i (call.drawer c)) (gs.set i ⟨call, log', .read t⟩) := by
  have hidle : ¬ CeremonyPhase.acted .start := by simp [CeremonyPhase.acted]
  have hself : Reading (gs.set i ⟨call, log', .read t⟩) i (call.drawer c) :=
    (reading_set_self hg).mpr ⟨⟨t, rfl⟩, rfl⟩
  have hcases : ∀ {j d}, Reading (gs.set i ⟨call, log', .read t⟩) j d →
      j = i ∧ d = call.drawer c ∨ j ≠ i ∧ d ≠ call.drawer c ∧ Reading gs j d := by
    intro j d hj
    by_cases hij : j = i
    · subst hij
      exact .inl ⟨rfl, ((reading_set_self hg).mp hj).2.symm⟩
    · have hold := (reading_set_other hij).mp hj
      refine .inr ⟨hij, ?_, hold⟩
      intro hd
      exact halone j (hd ▸ hold)
  obtain ⟨honce, hturns, hstores, htakes⟩ :=
    hI.take_turn hg hstate log' (show CeremonyPhase.acted (.read t) from trivial)
  refine ⟨?_, ?_, ?_, ?_, ?_, ?_, ?_, ?_, ?_, ?_, ?_, honce, hturns, hstores, htakes⟩
  · intro j k d hj hk
    rcases hcases hj with ⟨rfl, rfl⟩ | ⟨-, hd, hj⟩
    · rcases hcases hk with ⟨rfl, -⟩ | ⟨-, hd, -⟩
      · rfl
      · exact absurd rfl hd
    · rcases hcases hk with ⟨-, hd'⟩ | ⟨-, -, hk⟩
      · exact absurd hd' hd
      · exact hI.alone hj hk
  · intro d hnone
    have hd : d ≠ call.drawer c := by
      intro hd
      exact hnone i (hd ▸ hself)
    rw [hw, CeremonyNotes.find_turns, lies_take, Function.update_of_ne hd]
    exact hI.agreed fun j hj => hnone j (hj.after hg (by simp))
  · intro j d hj
    rw [CeremonyNotes.find_turns, lies_take]
    rcases hcases hj with ⟨-, rfl⟩ | ⟨-, hd, hj⟩
    · rw [Function.update_self]
    · rw [Function.update_of_ne hd]
      exact hI.removing hj
  · intro j d hj
    rw [CeremonyNotes.find_found]
    rcases hcases hj with ⟨rfl, rfl⟩ | ⟨hij, -, hj⟩
    · rw [Function.update_self]
      exact .inr rfl
    · rw [Function.update_of_ne hij]
      exact hI.reading hj
  · intro d s ho
    exact (hI.owner ho).after hg (by simp)
  · intro d s j ho hf
    rw [CeremonyNotes.find_found] at hf
    by_cases hij : j = i
    · subst hij
      rw [Function.update_self] at hf
      -- a call stores under one key only
      obtain ⟨x, hx, -, hxd⟩ := hI.owner ho
      obtain ⟨y, hy, -, hyd⟩ := hI.owner hf
      obtain rfl := Option.some.inj (hx.symm.trans hy)
      rw [← hxd, hyd]
      exact hself
    · rw [Function.update_of_ne hij] at hf
      exact (hI.fresh ho hf).after hg (by simp)
  · intro j s hf
    rw [CeremonyNotes.find_found] at hf
    by_cases hij : j = i
    · subst hij
      rw [Function.update_self] at hf
      exact ⟨hasActed_self hg trivial, _, (hI.owner hf).after hg (by simp)⟩
    · rw [Function.update_of_ne hij] at hf
      obtain ⟨hacted, d, hs⟩ := hI.found hf
      exact ⟨hacted.after hg fun _ => trivial, d, hs.after hg (by simp)⟩
  · -- nobody had found what is found now, or it would be about to be deleted
    have hnew : ∀ {j s}, h.owner (call.drawer c) = some s → h.found j = some s → False :=
      fun ho hf => halone _ (hI.fresh ho hf)
    intro j k s hj hk
    rw [CeremonyNotes.find_found] at hj hk
    by_cases hij : j = i
    · by_cases hik : k = i
      · rw [hij, hik]
      · rw [hij, Function.update_self] at hj
        rw [Function.update_of_ne hik] at hk
        exact (hnew hj hk).elim
    · rw [Function.update_of_ne hij] at hj
      by_cases hik : k = i
      · rw [hik, Function.update_self] at hk
        exact (hnew hk hj).elim
      · rw [Function.update_of_ne hik] at hk
        exact hI.single hj hk
  · intro j s hd
    obtain ⟨hacted, hf⟩ := hI.spared hd
    refine ⟨hacted.after hg fun _ => trivial, ?_⟩
    rw [CeremonyNotes.find_found, Function.update_of_ne (hI.not_found hg hidle hf)]
    exact hf
  · intro j x hx
    rw [CeremonyNotes.find_turns, removed_take]
    refine hI.removed_set hg (fun j hij => Function.update_of_ne hij _ _) ?_ hx
    rw [Function.update_self, hI.agreed halone]
    exact hlies
  · intro j hn
    have hij : j ≠ i := by
      intro hij
      subst hij
      exact hn (hasActed_self hg trivial)
    rw [CeremonyNotes.find_turns, removed_take, Function.update_of_ne hij]
    exact hI.idle fun hacted => hn (hacted.after hg fun _ => trivial)

/-- A take deletes the key: what is there is what it found. -/
theorem drop (hI : CeremoniesKept w h gs) {t : TimedState}
    (hg : gs[i]? = some ⟨call, log, .read t⟩)
    (hw : w'.drawer = Function.update w.drawer (call.drawer c) none) :
    CeremoniesKept w' (h.drop i (call.drawer c)) (gs.set i ⟨call, log', .aging t⟩) := by
  have hreads : Reading gs i (call.drawer c) := ⟨_, t, hg, rfl, rfl⟩
  have hacted : HasActed gs i := ⟨_, hg, trivial⟩
  refine ⟨?_, ?_, ?_, ?_, ?_, ?_, ?_, hI.single, ?_, ?_, ?_, hI.once, ?_, ?_, ?_⟩
  · exact fun hj hk => hI.alone (hj.before hg (by simp)).2 (hk.before hg (by simp)).2
  · intro d hnone
    rw [hw]
    by_cases hd : d = call.drawer c
    · rw [hd, Function.update_self]
      exact hI.removing hreads
    · rw [Function.update_of_ne hd]
      refine hI.agreed fun j hj => ?_
      have hij : j ≠ i := by
        intro hij
        subst hij
        obtain ⟨x, t', hx, -, hxd⟩ := hj
        obtain rfl := Option.some.inj (hg.symm.trans hx)
        exact hd hxd.symm
      exact hnone j ((reading_set_other hij).mpr hj)
  · exact fun hj => hI.removing (hj.before hg (by simp)).2
  · intro j d hj
    rw [CeremonyNotes.drop_owner]
    by_cases hd : d = call.drawer c
    · exact .inl (by rw [hd, Function.update_self])
    · rw [Function.update_of_ne hd]
      exact hI.reading (hj.before hg (by simp)).2
  · intro d s ho
    rw [CeremonyNotes.drop_owner] at ho
    by_cases hd : d = call.drawer c
    · rw [hd, Function.update_self] at ho
      cases ho
    · rw [Function.update_of_ne hd] at ho
      exact (hI.owner ho).after hg (by simp)
  · intro d s j ho hf
    rw [CeremonyNotes.drop_owner] at ho
    by_cases hd : d = call.drawer c
    · rw [hd, Function.update_self] at ho
      cases ho
    · rw [Function.update_of_ne hd] at ho
      have hj := hI.fresh ho hf
      have hij : j ≠ i := by
        intro hij
        subst hij
        obtain ⟨x, t', hx, -, hxd⟩ := hj
        obtain rfl := Option.some.inj (hg.symm.trans hx)
        exact hd hxd.symm
      exact (reading_set_other hij).mpr hj
  · intro j s hf
    obtain ⟨hacted, d, hs⟩ := hI.found hf
    exact ⟨hacted.after hg fun _ => trivial, d, hs.after hg (by simp)⟩
  · intro j s hd
    rw [CeremonyNotes.drop_dropped] at hd
    by_cases hij : j = i
    · rw [hij, Function.update_self] at hd
      rw [hij]
      refine ⟨hacted.after hg fun _ => trivial, ?_⟩
      rcases hI.reading hreads with hnone | hfound
      · rw [hnone] at hd
        cases hd
      · exact hfound.symm.trans hd
    · rw [Function.update_of_ne hij] at hd
      obtain ⟨hacted, hf⟩ := hI.spared hd
      exact ⟨hacted.after hg fun _ => trivial, hf⟩
  · exact fun hx => hI.removed_set hg (fun _ _ => rfl) (by exact hI.removed hg) hx
  · exact fun hn => hI.idle fun hacted => hn (hacted.after hg fun _ => trivial)
  · exact fun hj => (hI.turns hj).after hg fun _ => trivial
  · exact fun hm => call_after (p := fun a => a.drawer c = _ ∧ a.state = _) (hI.stores hm) hg
  · exact fun hm => call_after (p := fun a => a.drawer c = _ ∧ a.state = _) (hI.takes hm) hg

/-- One step of a call, when nobody else is about to delete what it stores or finds. -/
theorem deed (hI : CeremoniesKept w h gs) {cfg : CeremonyConfig} {h' : CeremonyNotes}
    (hshared : cfg.shared = w) (hg : gs[i]? = some ⟨call, log, ph⟩)
    (halone : nobody_about cfg (drops (call.drawer c)) = true →
      ∀ j, ¬ Reading gs j (call.drawer c))
    {x : (o : Op) × o.Reply} (hd : Deed cfg i (call.drawer c) call.state w' h x ph ph' h') :
    CeremoniesKept w' h' (gs.set i ⟨call, x :: log, ph'⟩) := by
  subst hshared
  have hgot := hI.removed hg
  cases hd with
  | clock hstate hw =>
      exact hI.quiet hg hw (by simp) (by simp) (by simp) (fun hact => hact.elim) trivial
  | put hnobody hstate hw => exact hI.put hg hstate (halone hnobody) hw
  | put_failed hw =>
      exact hI.quiet hg hw (by simp) (by simp) (by simp) (fun _ => trivial) trivial
  | failed hstate hw =>
      refine hI.quiet hg hw (by simp) (by simp) (by simp) (fun _ => trivial) ?_
      rw [hI.not_removed hg (by simp [CeremonyPhase.acted])]
      rfl
  | missed hstate hw hnothing => exact hI.missed hg hstate hw hnothing
  | found hnobody hstate hw hlies => exact hI.find hg hstate (halone hnobody) hw hlies
  | dropped hw => exact hI.drop hg hw
  | @aged t now hw hnow =>
      refine hI.quiet hg hw (by simp) (by simp) (by simp) (fun _ => trivial) ?_
      rw [show (sequential h.turns).removed i = some t from hgot]
      exact ⟨now, hnow ▸ List.mem_cons_self, rfl⟩

/-- A new call has stored nothing and found nothing. -/
theorem spawn (hI : CeremoniesKept w h gs) (call : CeremonyCall) :
    CeremoniesKept w h (gs ++ [⟨call, [], .start⟩]) := by
  have hread : ∀ {j d}, Reading (gs ++ [⟨call, [], .start⟩]) j d ↔ Reading gs j d := by
    intro j d
    constructor
    · intro hpost
      obtain ⟨x, t, hx, hph, hd⟩ := hpost
      rcases get_snoc_cases hx with ⟨-, rfl⟩ | hx
      · cases hph
      · exact ⟨x, t, hx, hph, hd⟩
    · intro hpost
      obtain ⟨x, t, hx, hph, hd⟩ := hpost
      exact ⟨x, t, by rw [List.getElem?_append_left (List.getElem?_eq_some_iff.mp hx).1, hx],
        hph, hd⟩
  have hstay : ∀ {j : Nat} {x : CeremonyGhost c}, gs[j]? = some x →
      (gs ++ [⟨call, [], .start⟩])[j]? = some x := by
    intro j x hx
    rw [List.getElem?_append_left (List.getElem?_eq_some_iff.mp hx).1, hx]
  have hacted : ∀ {j}, HasActed gs j → HasActed (gs ++ [⟨call, [], .start⟩]) j :=
    fun ⟨x, hx, hact⟩ => ⟨x, hstay hx, hact⟩
  have hstored : ∀ {s d}, HasStored gs s d → HasStored (gs ++ [⟨call, [], .start⟩]) s d :=
    fun ⟨x, hx, hrest⟩ => ⟨x, hstay hx, hrest⟩
  refine ⟨?_, ?_, ?_, ?_, ?_, ?_, ?_, hI.single, ?_, ?_, ?_, hI.once, ?_, ?_, ?_⟩
  · exact fun hj hk => hI.alone (hread.mp hj) (hread.mp hk)
  · exact fun hnone => hI.agreed fun j hj => hnone j (hread.mpr hj)
  · exact fun hj => hI.removing (hread.mp hj)
  · exact fun hj => hI.reading (hread.mp hj)
  · exact fun ho => hstored (hI.owner ho)
  · exact fun ho hf => hread.mpr (hI.fresh ho hf)
  · intro j s hf
    obtain ⟨hact, d, hs⟩ := hI.found hf
    exact ⟨hacted hact, d, hstored hs⟩
  · exact fun hd => ⟨hacted (hI.spared hd).1, (hI.spared hd).2⟩
  · intro j x hx
    rcases get_snoc_cases hx with ⟨-, rfl⟩ | hx
    · trivial
    · exact hI.removed hx
  · exact fun hn => hI.idle fun hact => hn (hacted hact)
  · exact fun hj => hacted (hI.turns hj)
  · intro j d t hm
    obtain ⟨x, hx, hrest⟩ := hI.stores hm
    exact ⟨x, hstay hx, hrest⟩
  · intro j d hm
    obtain ⟨x, hx, hrest⟩ := hI.takes hm
    exact ⟨x, hstay hx, hrest⟩

/-- An entry expires, in the sequential run too. -/
theorem expire (hI : CeremoniesKept w h gs) (d : Drawer)
    (hw : w'.drawer = Function.update w.drawer d none) : CeremoniesKept w' (h.expire d) gs := by
  have howner : ∀ {d' s}, (h.expire d).owner d' = some s → h.owner d' = some s := by
    intro d' s ho
    rw [CeremonyNotes.expire_owner] at ho
    by_cases hd : d' = d
    · rw [hd, Function.update_self] at ho
      cases ho
    · rwa [Function.update_of_ne hd] at ho
  have hcallers : (h.expire d).turns.filterMap Turn.caller = h.turns.filterMap Turn.caller := by
    rw [CeremonyNotes.expire_turns, List.filterMap_append]
    simp [Turn.caller]
  refine ⟨hI.alone, ?_, ?_, ?_, fun ho => hI.owner (howner ho),
    fun ho hf => hI.fresh (howner ho) hf, hI.found, hI.single, hI.spared, ?_, ?_, ?_, ?_, ?_, ?_⟩
  · intro d' hnone
    rw [hw, CeremonyNotes.expire_turns, lies_expire, Function.update_apply, Function.update_apply,
      hI.agreed hnone]
  · intro j d' hj
    rw [CeremonyNotes.expire_turns, lies_expire, Function.update_apply, hI.removing hj, ite_self]
  · intro j d' hj
    rw [CeremonyNotes.expire_owner]
    by_cases hd : d' = d
    · exact .inl (by rw [hd, Function.update_self])
    · rw [Function.update_of_ne hd]
      exact hI.reading hj
  · rw [CeremonyNotes.expire_turns, removed_expire]
    exact hI.removed
  · rw [CeremonyNotes.expire_turns, removed_expire]
    exact hI.idle
  · rw [hcallers]
    exact hI.once
  · rw [hcallers]
    exact hI.turns
  · intro j d' t hm
    rcases List.mem_append.mp hm with hm | hm
    · exact hI.stores hm
    · simp at hm
  · intro j d' hm
    rcases List.mem_append.mp hm with hm | hm
    · exact hI.takes hm
    · simp at hm

/-- Of the other caches the invariant says nothing. -/
theorem same (hI : CeremoniesKept w h gs) (hw : w'.drawer = w.drawer) :
    CeremoniesKept w' h gs :=
  { hI with
    agreed := by
      rw [hw]
      exact hI.agreed }

end CeremoniesKept

/-- A take that is about to delete a key is noticed. -/
theorem Reading.about {cfg : CeremonyConfig} {gs : List (CeremonyGhost c)} {i : Nat} {d : Drawer}
    (htr : Protocol.Tracked (storing c) cfg gs) (h : Reading gs i d) :
    nobody_about cfg (drops d) ≠ true := by
  obtain ⟨g, t, hg, hph, hd⟩ := h
  obtain ⟨th, hth, hcall, o, r, ph, hnext, hstep⟩ := htr.asking hg (by
    intro a hfinal
    rw [hph] at hfinal
    cases a <;> cases hfinal)
  intro hall
  have hfalse := nobody_about_iff.mp hall th hth o hnext
  rw [hcall] at hfalse
  rw [hph] at hstep
  generalize g.call = call at hstep hfalse hd
  cases hstep <;> simp [drops, CeremonyCall.drawer] at hfalse hd <;> exact hfalse hd.symm

/-- No call made yet, and nothing in the caches. -/
theorem ceremonies_kept_start {w : World} (hempty : ∀ d, w.drawer d = none) :
    CeremoniesKept w .empty ([] : List (CeremonyGhost c)) := by
  have hread : ∀ {i d}, ¬ Reading ([] : List (CeremonyGhost c)) i d := by
    intro i d hpost
    obtain ⟨g, _, hg, _⟩ := hpost
    cases hg
  refine ⟨fun h => (hread h).elim, fun _ => (hempty _).symm, fun h => (hread h).elim,
    fun h => (hread h).elim, ?_, ?_, ?_, ?_, ?_, ?_, fun _ => rfl, List.nodup_nil, ?_, ?_, ?_⟩
  all_goals intros; simp_all [CeremonyNotes.empty]

end Invariant

/-! ### Runs -/

section Runs

variable {c : Crates} {cfg : CeremonyConfig} {h : CeremonyNotes}

theorem taken_once_of_kept {gs : List (CeremonyGhost c)}
    (htr : Protocol.Tracked (storing c) cfg gs) (hI : CeremoniesKept cfg.shared h gs) :
    TakenOnce c cfg h where
  single hi hj _ _ := hI.single hi hj
  spared hd := (hI.spared hd).2
  turns :=
    { once := hI.once
      stores := by
        intro i d t hm
        obtain ⟨g, hg, hrest⟩ := hI.stores hm
        exact ⟨g.call, htr.call hg, hrest⟩
      takes := by
        intro i d hm
        obtain ⟨g, hg, hrest⟩ := hI.takes hm
        exact ⟨g.call, htr.call hg, hrest⟩ }
  results := by
    intro i r hres
    obtain ⟨g, hg, hph⟩ := htr.final hres
    have hgot := hI.removed hg
    rw [show g.phase = .taken r from hph] at hgot
    rw [htr.log hg]
    exact hgot

/-- Every watched run in which the takes are undisturbed keeps the invariant. -/
theorem ceremonies_kept {w : World} {evs : List (Basis.Event Choice CeremonyCall Expiry)}
    {wcfg : Config Op Op.Reply (World × CeremonyNotes) CeremonyCall CeremonyResult}
    (hempty : ∀ d, w.drawer d = none)
    (halone : (ceremonies c).Along (fun cfg ev => one_at_a_time cfg ev = true) ⟨w, []⟩ evs)
    (hrun : ((ceremonies c).watch ceremony_watcher).run ⟨(w, .empty), []⟩ evs = some wcfg) :
    ∃ gs, Protocol.Tracked (storing c) wcfg gs ∧
      CeremoniesKept wcfg.shared.1 wcfg.shared.2 gs := by
  refine Protocol.run_tracks (S := (ceremonies c).watch ceremony_watcher) (storing_follows c)
    (fun (s : World × CeremonyNotes) gs => CeremoniesKept s.1 s.2 gs) ?_
    ⟨[], Protocol.tracked_nil _ _, ceremonies_kept_start hempty⟩
    (System.watch_along (N := ceremony_watcher) halone) hrun
  intro cfg gs ev s' gs' htr hI hC hmv
  cases hmv with
  | spawn call => exact hI.spawn call
  | @step i ch g o s r ph hg hcall hnext hans hstep =>
      obtain ⟨hans, hnote⟩ := System.watch_answer.mp hans
      have htr' : Protocol.Tracked (storing c) cfg.unwatched gs := ⟨htr.length, htr.each⟩
      have hans : World.answer c i o ch cfg.unwatched.shared = some (s'.1, r) := hans
      have hdeed : Deed cfg.unwatched i (g.call.drawer c) g.call.state s'.1 cfg.shared.2 ⟨o, r⟩
          g.phase ph s'.2 := by
        rw [hnote]
        exact CeremonyStep.deed hstep hnext hans hC cfg.shared.2
      exact hI.deed rfl hg (fun hnobody j hj => hj.about htr' hnobody) hdeed
  | env ev =>
      cases ev with
      | reg_state k => exact hI.expire (.reg k) (drawer_reg _ _ _)
      | auth_state k => exact hI.expire (.auth k) (drawer_auth _ _ _)
      | token k | link k | user id => exact hI.same rfl

end Runs

/-- **A stored state is taken once**, like by an atomic removal, in every run in which no take's
deletion fails and nothing is stored or found under a key while a take is about to delete it. -/
theorem ceremonies_taken_once (c : Crates) (w : World)
    (evs : List (Basis.Event Choice CeremonyCall Expiry)) (cfg : CeremonyConfig)
    (hempty : ∀ d, w.drawer d = none)
    (halone : (ceremonies c).Along (fun cfg ev => one_at_a_time cfg ev = true) ⟨w, []⟩ evs)
    (hrun : (ceremonies c).run ⟨w, []⟩ evs = some cfg) :
    ∃ seen, ((ceremonies c).watch ceremony_watcher).run ⟨(w, .empty), []⟩ evs = some seen ∧
      seen.unwatched = cfg ∧ TakenOnce c cfg seen.shared.2 := by
  obtain ⟨seen, hseen, rfl⟩ : ∃ seen, ((ceremonies c).watch ceremony_watcher).run
      ⟨(w, .empty), []⟩ evs = some seen ∧ seen.unwatched = cfg := System.exists_watch_run hrun
  obtain ⟨gs, htr, hI⟩ := ceremonies_kept hempty halone hseen
  exact ⟨seen, hseen, rfl, taken_once_of_kept ⟨htr.length, htr.each⟩ hI⟩

/-- The state of a login ceremony. -/
def alices_ceremony : PasskeyAuthentication := { challenge := "c2ln", credentials := [] }

/-- One ceremony is stored and taken before the next one is. -/
def ceremonies_in_turn : List (Basis.Event Choice CeremonyCall Expiry) :=
  [.spawn (.store_auth "alice" alices_ceremony), .step 0 (.time 0), .step 0 .go,
    .spawn (.take_auth "alice"), .step 1 .go, .step 1 .go, .step 1 (.time 0),
    .spawn (.store_auth "alice" alices_ceremony), .step 2 (.time 0), .step 2 .go,
    .spawn (.take_auth "alice"), .step 3 .go, .step 3 .go, .step 3 (.time 0)]

theorem ceremonies_taken_once_in_turn : ∃ cfg seen,
    (ceremonies sample_crates).run ⟨World.of [], []⟩ ceremonies_in_turn = some cfg ∧
    cfg.result 1 = some (.taken (some (.auth alices_ceremony))) ∧
    cfg.result 3 = some (.taken (some (.auth alices_ceremony))) ∧
    ((ceremonies sample_crates).watch ceremony_watcher).run ⟨(World.of [], .empty), []⟩
      ceremonies_in_turn = some seen ∧
    seen.unwatched = cfg ∧ TakenOnce sample_crates cfg seen.shared.2 := by
  obtain ⟨seen, hrun⟩ := ceremonies_taken_once sample_crates (World.of []) ceremonies_in_turn _
    (fun d => by cases d <;> rfl) (by decide) rfl
  exact ⟨_, seen, rfl, rfl, rfl, hrun⟩

/-- Both takes read the cache before either deletes the key. -/
def two_takes : List (Basis.Event Choice CeremonyCall Expiry) :=
  [.spawn (.store_auth "alice" alices_ceremony), .step 0 (.time 0), .step 0 .go,
    .spawn (.take_auth "alice"), .spawn (.take_auth "alice"), .step 1 .go, .step 2 .go,
    .step 1 .go, .step 1 (.time 0), .step 2 .go, .step 2 (.time 0)]

/-- A new ceremony is stored while the take of the old one is about to delete the key. -/
def overtaken_take : List (Basis.Event Choice CeremonyCall Expiry) :=
  [.spawn (.store_auth "alice" alices_ceremony), .step 0 (.time 0), .step 0 .go,
    .spawn (.take_auth "alice"), .step 1 .go,
    .spawn (.store_auth "alice" alices_ceremony), .step 2 (.time 0), .step 2 .go, .step 1 .go]

/-- **Without that condition one ceremony is taken twice, and another one is lost.** -/
theorem ceremonies_taken_twice_and_lost :
    (∃ seen, ((ceremonies sample_crates).watch ceremony_watcher).run
        ⟨(World.of [], .empty), []⟩ two_takes = some seen ∧
      ¬ TakenOnce sample_crates seen.unwatched seen.shared.2) ∧
    ∃ seen, ((ceremonies sample_crates).watch ceremony_watcher).run
        ⟨(World.of [], .empty), []⟩ overtaken_take = some seen ∧
      ¬ TakenOnce sample_crates seen.unwatched seen.shared.2 := by
  refine ⟨⟨_, rfl, ?_⟩, ⟨_, rfl, ?_⟩⟩
  · intro honce
    have hij := honce.single (i := 1) (j := 2) (s := 0) rfl rfl rfl rfl
    cases hij
  · intro honce
    have hfound := honce.spared (i := 1) (s := 2) rfl
    cases hfound

end Authnz
