/-
Raw tokens and the database.

Every token flow hands the database the hash of a token and nothing else of it, so two
runs that draw different tokens of the same hash, and present them in the same places,
leave it the same.  The one statement that breaks this is the event of a reset
request: the outbox is a table, and the event carries the token as it is.
-/
import Mathlib.Data.List.Forall2
import Authnz.Basis.Twins
import Authnz.Model.Sample
import Authnz.Proofs.Announcing
import Authnz.Proofs.Routes

namespace Authnz

open Basis

inductive TokenFlow where
  | issue_token_pair (user_id : Uuid) (issuer : String)
  | refresh (cmd : RefreshCmd)
  | logout (cmd : LogoutCmd)
  | request_password_reset (cmd : RequestPasswordResetCmd)
  | confirm_password_reset (cmd : ConfirmPasswordResetCmd)
  deriving DecidableEq

inductive FlowReply where
  | pair (r : Except JwtError JwtResult)
  | done (r : Except JwtError Unit)
  | requested (r : Except AuthError Unit)
  | confirmed (r : Except AuthError Uuid)

def TokenFlow.code (jwt_svc : JwtService) : TokenFlow → Handler FlowReply
  | .issue_token_pair user_id issuer =>
      return .pair (← (jwt_svc.issue_token_pair user_id issuer).run)
  | .refresh cmd => return .pair (← (jwt_svc.refresh cmd).run)
  | .logout cmd => return .done (← (jwt_svc.logout cmd).run)
  | .request_password_reset cmd =>
      return .requested (← (UserService.request_password_reset jwt_svc.crates cmd).run)
  | .confirm_password_reset cmd =>
      return .confirmed (← (UserService.confirm_password_reset jwt_svc.crates cmd).run)

/-- Any number of token flows at once. -/
abbrev flowing (jwt_svc : JwtService) : System Op Op.Reply Choice World TokenFlow Expiry FlowReply :=
  service jwt_svc.crates (TokenFlow.code jwt_svc)

abbrev FlowConfig : Type := Config Op Op.Reply World TokenFlow FlowReply

/-! ### Tokens of one hash -/

/-- The service reads a presented text trimmed, and refuses it if nothing is left. -/
def Presented (c : Crates) (text text' : String) : Prop :=
  (trim text).isEmpty = (trim text').isEmpty ∧
    hash_token c (trim text) = hash_token c (trim text')

/-- The same call, but for the token it presents. -/
inductive TokenFlow.Twin (c : Crates) : TokenFlow → TokenFlow → Prop where
  | issue_token_pair (user_id : Uuid) (issuer : String) :
      Twin c (.issue_token_pair user_id issuer) (.issue_token_pair user_id issuer)
  | refresh {token token' : String} (h : Presented c token token') :
      Twin c (.refresh ⟨token⟩) (.refresh ⟨token'⟩)
  | logout {token token' : String} (h : Presented c token token') :
      Twin c (.logout ⟨token⟩) (.logout ⟨token'⟩)
  | request_password_reset (cmd : RequestPasswordResetCmd) :
      Twin c (.request_password_reset cmd) (.request_password_reset cmd)
  | confirm_password_reset {token token' new_password : String}
      (h : hash_token c token = hash_token c token') :
      Twin c (.confirm_password_reset ⟨token, new_password⟩)
        (.confirm_password_reset ⟨token', new_password⟩)

/-- The same choice, or a draw of another token with the same hash. -/
inductive Choice.Twin (c : Crates) : Choice → Choice → Prop where
  | same (ch : Choice) : Twin c ch ch
  | drawn {bytes bytes' : List UInt8} (hlen : bytes.length = bytes'.length)
      (h : hash_token c (base64url bytes) = hash_token c (base64url bytes')) :
      Twin c (.bytes bytes) (.bytes bytes')

/-! ### The flows in step -/

/-- The operation publishes an event. -/
def Op.publishes : Op → Bool
  | .sql (.insert _ mk _) => (outbox.prj (mk 0)).isSome
  | _ => false

/-- The same operation, or the same event with another token. -/
inductive SameWork : Op → Op → Prop where
  | same (o : Op) : SameWork o o
  | push (email raw raw' : String) : SameWork (push_event email raw) (push_event email raw')

/-- The same reply, but for what has been drawn. -/
inductive SameNews (c : Crates) : (o o' : Op) → o.Reply → o'.Reply → Prop where
  | same (o : Op) (r : o.Reply) : SameNews c o o r r
  | drawn {n : Nat} {bytes bytes' : List UInt8}
      (h : hash_token c (base64url bytes) = hash_token c (base64url bytes')) :
      SameNews c (.fill n) (.fill n) bytes bytes'
  | failed {email raw raw' : String} (e : DbError) :
      SameNews c (push_event email raw) (push_event email raw') (Except.error e) (Except.error e)

/-- The operation draws no token. -/
def Undrawn : Op → Prop
  | .fill _ => False
  | _ => True

section Steps

variable {c : Crates}

theorem SameNews.heq {o o' : Op} {r : o.Reply} {r' : o'.Reply} (h : SameNews c o o' r r')
    (ho : Undrawn o) : HEq r r' := by
  cases h with
  | same => exact HEq.rfl
  | drawn => exact ho.elim
  | failed => exact HEq.rfl

/-- A function that draws no token is in step with itself. -/
theorem inStep_undrawn {α : Type} {p : Handler α} (hp : p.Uses Undrawn) :
    Prog.InStep SameWork (SameNews c) Eq p p :=
  Prog.inStep_refl (fun o _ => .same o) (fun _ ho _ _ h => eq_of_heq (h.heq ho)) hp

theorem inStep_undrawnE {ε α : Type} {p : Service ε α} (hp : p.run.Uses Undrawn) :
    Prog.InStep SameWork (SameNews c) (BothE Eq) p.run p.run := by
  refine Prog.inStep_mono (inStep_undrawn hp) fun r r' h => ?_
  subst h
  cases r with
  | ok a => exact .ok rfl
  | error e => exact .error e

theorem inStep_lift {ε α β : Type} {Q : α → β → Prop} {p : Handler α} {q : Handler β}
    (h : Prog.InStep SameWork (SameNews c) Q p q) :
    Prog.InStep SameWork (SameNews c) (BothE Q) (liftM p : Service ε α).run
      (liftM q : Service ε β).run :=
  Prog.inStep_bind h fun _ _ hQ => .ret (.ok hQ)

theorem generate_raw_token_in_step : Prog.InStep SameWork (SameNews c)
    (fun raw raw' => hash_token c raw = hash_token c raw') generate_raw_token
    generate_raw_token := by
  refine .ask (.same _) fun bytes bytes' h => .ret ?_
  cases h with
  | same => rfl
  | drawn h => exact h

/-- A token pair is issued with another token, and the same hash of it. -/
theorem issue_token_pair_in_step (jwt_svc : JwtService) (hc : jwt_svc.crates = c) (ex : Executor)
    (user_id : Uuid) (issuer : String) :
    Prog.InStep SameWork (SameNews c) (BothE fun _ _ => True)
      (jwt_svc.issue_token_pair_with ex user_id issuer).run
      (jwt_svc.issue_token_pair_with ex user_id issuer).run := by
  unfold JwtService.issue_token_pair_with
  refine Prog.inStep_bindE (inStep_undrawnE (uses_attempt (uses_ask trivial))) ?_
  intro access _ rfl
  refine Prog.inStep_bindE (inStep_lift generate_raw_token_in_step) ?_
  intro raw raw' hhash
  rw [← hc] at hhash
  rw [hhash]
  refine Prog.inStep_bindE (inStep_undrawnE (uses_lift (uses_ask trivial))) ?_
  intro t _ rfl
  refine Prog.inStep_bindE (inStep_undrawnE (uses_lift (uses_ask trivial))) ?_
  intro now _ rfl
  refine Prog.inStep_bindE (inStep_undrawnE (uses_attempt (uses_insert trivial))) ?_
  intro row _ _
  exact .ret (.ok trivial)

theorem in_tx_in_step {ε α : Type} {Q : α → α → Prop} {body body' : Service ε α}
    (h : Prog.InStep SameWork (SameNews c) (BothE Q) body.run body'.run) :
    Prog.InStep SameWork (SameNews c) (BothE Q) (in_tx body).run (in_tx body').run :=
  Prog.inStep_bind h fun _ _ hr =>
    Prog.inStep_bind (inStep_undrawn (uses_ask trivial)) fun _ _ _ => .ret hr

theorem get_refresh_token_by_hash_undrawn (hash : String) :
    (JwtService.get_refresh_token_by_hash hash).run.Uses Undrawn := by
  refine Prog.uses_bindE (uses_attempt (uses_select trivial)) fun rows => ?_
  cases rows with
  | nil => trivial
  | cons r rest =>
      dsimp only
      split <;> trivial

theorem refresh_in_step (jwt_svc : JwtService) {token token' : String}
    (h : Presented jwt_svc.crates token token') :
    Prog.InStep SameWork (SameNews jwt_svc.crates) (BothE fun _ _ => True)
      (jwt_svc.refresh ⟨token⟩).run (jwt_svc.refresh ⟨token'⟩).run := by
  obtain ⟨hempty, hhash⟩ := h
  unfold JwtService.refresh
  dsimp only
  rw [hempty, hhash]
  by_cases he : (trim token').isEmpty = true
  · rw [if_pos he]
    exact .ret (.error _)
  rw [if_neg he]
  refine Prog.inStep_bindE (inStep_undrawnE (uses_attempt (uses_ask trivial))) fun _ _ _ => ?_
  refine in_tx_in_step ?_
  refine Prog.inStep_bindE (inStep_undrawnE (get_refresh_token_by_hash_undrawn _)) ?_
  intro row _ rfl
  by_cases hr : row.revoked = true
  · rw [if_pos hr]
    exact .ret (.error _)
  rw [if_neg hr]
  refine Prog.inStep_bindE (inStep_undrawnE (uses_lift (uses_ask trivial))) ?_
  intro now _ rfl
  by_cases hx : row.expires_at < (now : Time)
  · rw [if_pos hx]
    exact .ret (.error _)
  rw [if_neg hx]
  refine Prog.inStep_bindE (inStep_undrawnE (uses_attempt (uses_ask trivial))) ?_
  intro user _ rfl
  refine Prog.inStep_bindE (inStep_undrawnE (Prog.uses_bindE (uses_attempt (uses_delete trivial))
    fun _ => trivial)) fun _ _ _ => ?_
  refine Prog.inStep_bindE (issue_token_pair_in_step jwt_svc rfl .tx user.id row.issuer) ?_
  intro pair pair' _
  refine Prog.inStep_bindE (inStep_undrawnE (uses_attempt (uses_ask trivial))) fun _ _ _ => ?_
  exact .ret (.ok trivial)

theorem logout_in_step (jwt_svc : JwtService) {token token' : String}
    (h : Presented jwt_svc.crates token token') :
    Prog.InStep SameWork (SameNews jwt_svc.crates) Eq
      (jwt_svc.logout ⟨token⟩).run (jwt_svc.logout ⟨token'⟩).run := by
  obtain ⟨hempty, hhash⟩ := h
  unfold JwtService.logout
  dsimp only
  rw [hempty, hhash]
  by_cases he : (trim token').isEmpty = true
  · rw [if_pos he]
    exact .ret rfl
  rw [if_neg he]
  refine inStep_undrawn (Prog.uses_bind (Prog.uses_bindE (uses_attempt (uses_update trivial))
    fun rows => ?_) fun r => ?_)
  · by_cases hl : rows.length = 0
    · rw [if_pos hl]
      trivial
    · rw [if_neg hl]
      trivial
  · rcases r with e | u
    · cases e <;> trivial
    · trivial

theorem confirm_in_step {token token' new_password : String}
    (h : hash_token c token = hash_token c token') :
    Prog.InStep SameWork (SameNews c) Eq
      (UserService.confirm_password_reset c ⟨token, new_password⟩).run
      (UserService.confirm_password_reset c ⟨token', new_password⟩).run := by
  unfold UserService.confirm_password_reset
  dsimp only
  rw [h]
  by_cases hs : c.zxcvbn_score new_password < 3
  · rw [if_pos hs]
    exact .ret rfl
  rw [if_neg hs]
  refine inStep_undrawn (Prog.uses_bindE (uses_lift (uses_ask trivial)) fun now =>
    Prog.uses_bindE (uses_attempt (uses_ask trivial)) fun _ => uses_in_tx ?_ trivial)
  refine Prog.uses_bindE (uses_attempt (uses_update trivial)) fun rows => ?_
  cases rows with
  | nil => trivial
  | cons reset rest =>
      exact Prog.uses_bindE (uses_attempt (uses_ask trivial)) fun _ =>
        Prog.uses_bindE (uses_attempt (uses_update trivial)) fun _ =>
          Prog.uses_bindE (uses_attempt (uses_ask trivial)) fun _ => trivial

theorem attempt_in_step {ε ε' α : Type} {err : ε' → ε} {p q : Handler (Except ε' α)}
    (h : Prog.InStep SameWork (SameNews c) Eq p q) :
    Prog.InStep SameWork (SameNews c) (BothE Eq) (attempt err p).run (attempt err q).run := by
  refine Prog.inStep_bind h fun r r' hr => ?_
  subst hr
  cases r with
  | ok a => exact .ret (.ok rfl)
  | error e => exact .ret (.error _)

theorem push_in_step (email raw raw' : String) : Prog.InStep SameWork (SameNews c) Eq
    (insert_into outbox .tx fun _ => .password_reset_requested email raw)
    (insert_into outbox .tx fun _ => .password_reset_requested email raw') := by
  refine .ask (.push email raw raw') fun r r' h => ?_
  obtain rfl := eq_of_heq (h.heq trivial)
  exact .ret rfl

/-- A request is in step with itself up to the event, and after it if it could not be stored. -/
theorem request_in_step (cmd : RequestPasswordResetCmd) :
    Prog.InStep SameWork (SameNews c) (BothE fun _ _ => True)
      (UserService.request_password_reset c cmd).run
      (UserService.request_password_reset c cmd).run := by
  unfold UserService.request_password_reset
  refine Prog.inStep_bindE (inStep_undrawnE (uses_attempt (uses_select trivial))) ?_
  intro rows _ rfl
  cases rows with
  | nil => exact .ret (.ok trivial)
  | cons u us =>
      refine Prog.inStep_bindE (inStep_lift generate_raw_token_in_step) ?_
      intro raw raw' hhash
      dsimp only
      rw [hhash]
      refine Prog.inStep_bindE (inStep_undrawnE (uses_lift (uses_ask trivial))) ?_
      intro now _ rfl
      refine Prog.inStep_bindE (inStep_undrawnE (uses_attempt (uses_ask trivial))) fun _ _ _ => ?_
      refine in_tx_in_step ?_
      refine Prog.inStep_bindE (inStep_undrawnE (uses_attempt (uses_insert trivial))) fun _ _ _ => ?_
      refine Prog.inStep_bindE (attempt_in_step (push_in_step cmd.email raw raw')) fun _ _ _ => ?_
      exact Prog.inStep_mono (inStep_undrawnE (uses_attempt (uses_ask trivial)))
        fun _ _ h => h.mono fun _ _ _ => trivial

theorem flows_in_step (jwt_svc : JwtService) {call call' : TokenFlow}
    (h : TokenFlow.Twin jwt_svc.crates call call') :
    Prog.InStep SameWork (SameNews jwt_svc.crates) (fun _ _ => True) (call.code jwt_svc)
      (call'.code jwt_svc) := by
  cases h with
  | issue_token_pair user_id issuer =>
      exact Prog.inStep_bind (issue_token_pair_in_step jwt_svc rfl .pool user_id issuer)
        fun _ _ _ => .ret trivial
  | refresh h => exact Prog.inStep_bind (refresh_in_step jwt_svc h) fun _ _ _ => .ret trivial
  | logout h => exact Prog.inStep_bind (logout_in_step jwt_svc h) fun _ _ _ => .ret trivial
  | request_password_reset cmd =>
      exact Prog.inStep_bind (request_in_step cmd) fun _ _ _ => .ret trivial
  | confirm_password_reset h =>
      exact Prog.inStep_bind (confirm_in_step h) fun _ _ _ => .ret trivial

theorem split_undrawn {o : Op} (ho : Undrawn o) : o.split.Uses Undrawn := by
  have hparts : ∀ {α : Type} (p : Prog (SqlOp Record) SqlOp.Reply α),
      (p.interp sql_part).Uses Undrawn := by
    intro α p
    induction p with
    | ret a => trivial
    | ask o k ih => exact Prog.uses_bind (uses_ask trivial) ih
  cases o with
  | sql o => exact hparts o.split
  | fill n => exact ho.elim
  | _ => exact uses_ask trivial

/-- The same, statement by statement. -/
theorem parts_in_step {o o' : Op} (h : SameWork o o') :
    Prog.InStep SameWork (SameNews c) (SameNews c o o') o.split o'.split := by
  cases h with
  | push email raw raw' => exact .ask (.push email raw raw') fun _ _ h => .ret h
  | same o =>
      by_cases ho : Undrawn o
      · exact Prog.inStep_mono (inStep_undrawn (split_undrawn ho)) fun r _ hr => hr ▸ .same o r
      · cases o with
        | fill n => exact .ask (.same _) fun _ _ h => .ret h
        | _ => exact absurd trivial ho

end Steps

/-! ### Answers in step -/

/-- No event is published, unless the outbox fails. -/
def Unpublished (o : Op) (ch : Choice) : Prop := o.publishes = true → ch = .fail

theorem answers_in_step {c : Crates} {i : Nat} {o o' : Op} {ch ch' : Choice} {w w' : World}
    {r : o.Reply} (hwork : SameWork o o') (hch : ch.Twin c ch') (hun : Unpublished o ch)
    (hans : World.answer c i o ch w = some (w', r)) :
    ∃ r', World.answer c i o' ch' w = some (w', r') ∧ SameNews c o o' r r' := by
  cases hwork with
  | push email raw raw' =>
      obtain rfl := hun rfl
      cases hch
      cases hans
      exact ⟨_, rfl, .failed _⟩
  | same =>
      cases hch with
      | same => exact ⟨r, hans, .same o r⟩
      | @drawn bytes bytes' hlen h =>
          cases o with
          | fill n =>
              obtain ⟨hn, heq⟩ := Option.ite_none_right_eq_some.mp hans
              cases heq
              exact ⟨bytes', if_pos (hlen ▸ hn), .drawn h⟩
          | sql o => cases hans
          | _ => cases hans

/-! ### Every pair of runs -/

/-- Whatever other tokens of the same hashes are drawn and presented instead, the state is the same
after every step. -/
def TokensStayOut (jwt_svc : JwtService) (w : World)
    (evs : List (Basis.Event Choice TokenFlow Expiry)) : Prop :=
  ∀ evs', List.Forall₂ (Basis.Event.Twin (TokenFlow.Twin jwt_svc.crates)
      (Choice.Twin jwt_svc.crates)) evs evs' →
    ∀ (n : Nat) (cfg : FlowConfig), (flowing jwt_svc).run ⟨w, []⟩ (evs.take n) = some cfg →
      ∃ cfg', (flowing jwt_svc).run ⟨w, []⟩ (evs'.take n) = some cfg' ∧
        cfg'.shared = cfg.shared

/-- The thread about to move does not push an event, or the outbox fails. -/
def nothing_published (cfg : FlowConfig) : Basis.Event Choice TokenFlow Expiry → Bool
  | .step i ch => ch == .fail || !(cfg.next i).any Op.publishes
  | _ => true

theorem admits_of_nothing_published {cfg : FlowConfig} {ev : Basis.Event Choice TokenFlow Expiry}
    (h : nothing_published cfg ev = true) : cfg.Admits Unpublished ev := by
  cases ev with
  | step i ch =>
      intro o ho hpub
      rcases Bool.or_eq_true_iff.mp h with hfail | hno
      · exact beq_iff_eq.mp hfail
      · rw [ho] at hno
        simp [hpub] at hno
  | spawn | env => trivial

/-- **Raw tokens stay out of the database** in every run in which no event reaches the outbox. -/
theorem raw_tokens_stay_out (jwt_svc : JwtService) (w : World)
    (evs : List (Basis.Event Choice TokenFlow Expiry))
    (hpush : (flowing jwt_svc).Along (fun cfg ev => nothing_published cfg ev = true) ⟨w, []⟩ evs) :
    TokensStayOut jwt_svc w evs := by
  intro evs' hevs n cfg hrun
  rw [← List.take_append_drop n evs] at hpush
  obtain ⟨hbefore, -⟩ := System.along_append hpush hrun
  have hcode : ∀ call call', TokenFlow.Twin jwt_svc.crates call call' →
      Prog.InStep SameWork (SameNews jwt_svc.crates) (fun _ _ => True)
        ((flowing jwt_svc).code call) ((flowing jwt_svc).code call') := fun call call' h =>
    Prog.inStep_interp (flows_in_step jwt_svc h) fun _ _ => parts_in_step
  have hadm : (flowing jwt_svc).Along (fun cfg ev => cfg.Admits Unpublished ev) ⟨w, []⟩
      (evs.take n) := System.along_mono (fun _ _ => admits_of_nothing_published) hbefore
  have hans : ∀ (i : Nat) (o o' : Op) (ch ch' : Choice) (s s' : World) (r : o.Reply),
      SameWork o o' → ch.Twin jwt_svc.crates ch' → Unpublished o ch →
      (flowing jwt_svc).answer i o ch s = some (s', r) →
      ∃ r', (flowing jwt_svc).answer i o' ch' s = some (s', r') ∧
        SameNews jwt_svc.crates o o' r r' :=
    fun i o o' ch ch' s s' r hwork hch hun hans => answers_in_step hwork hch hun hans
  obtain ⟨cfg', hrun', htwin⟩ := twins_run hcode hans (List.forall₂_take n hevs) hadm
    ⟨rfl, rfl, fun i th th' hth => by simp at hth⟩ hrun
  exact ⟨cfg', hrun', htwin.shared.symm⟩

/-! ### A reset request -/

/-- A service whose hash is the same for every token. -/
def one_hash_jwt : JwtService := ⟨{ sample_crates with sha256_hex := fun _ => "hash" }, ["authnz"]⟩

/-- A token pair for Alice, its rotation, its end, and a request for an address nobody has. -/
def quiet_flows : List (Basis.Event Choice TokenFlow Expiry) :=
  [.spawn (.issue_token_pair 7 "session"), .step 0 (.text "jwt"),
    .step 0 (.bytes (List.replicate 32 1)), .step 0 (.time 0), .step 0 (.time 0), .step 0 .go,
    .step 0 .go, .spawn (.logout ⟨token_of 1⟩), .step 1 .go, .step 1 .go, .step 1 .go,
    .spawn (.request_password_reset ⟨"nobody@example.com"⟩), .step 2 .go]

theorem raw_tokens_stay_out_of_quiet_flows :
    TokensStayOut one_hash_jwt (World.of no_resets) quiet_flows :=
  raw_tokens_stay_out one_hash_jwt (World.of no_resets) quiet_flows (by decide)

/-- One request of Alice's, with this token drawn. -/
def request_flow (byte : UInt8) : List (Basis.Event Choice TokenFlow Expiry) :=
  [.spawn (.request_password_reset ⟨"alice@example.com"⟩), .step 0 .go,
    .step 0 (.bytes (List.replicate 32 byte)), .step 0 (.time 0), .step 0 .go, .step 0 (.key 1),
    .step 0 .go, .step 0 .go, .step 0 .go]

/-- **A reset request leaves its token in the database**: another of the same hash leaves other
rows. -/
theorem reset_request_stores_token :
    ¬ TokensStayOut one_hash_jwt (World.of no_resets) (request_flow 1) := by
  intro h
  have htwin : List.Forall₂ (Basis.Event.Twin (TokenFlow.Twin one_hash_jwt.crates)
      (Choice.Twin one_hash_jwt.crates)) (request_flow 1) (request_flow 2) :=
    .cons (.spawn (.request_password_reset _)) <| .cons (.step 0 (.same _)) <|
      .cons (.step 0 (.drawn rfl rfl)) <| .cons (.step 0 (.same _)) <|
      .cons (.step 0 (.same _)) <| .cons (.step 0 (.same _)) <| .cons (.step 0 (.same _)) <|
      .cons (.step 0 (.same _)) <| .cons (.step 0 (.same _)) .nil
  obtain ⟨cfg', hrun', hshared⟩ := h (request_flow 2) htwin 9 _ rfl
  obtain rfl := Option.some.inj hrun'
  have hrows := congrArg (fun w : World => w.db.map Slot.current) hshared
  revert hrows
  decide

end Authnz
