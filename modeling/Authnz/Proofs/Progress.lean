/-
Nobody waits for good.

A call waits for another one only for a row the other has in hand.  Calls take rows
of users after all others and the rows of one statement from the first to the last,
so the row the other one is waiting for, if it is waiting too, comes later, and the
chain of waiting calls ends with one that can go on.  The deletion of a user takes
the user's row before the rows that go with it, and that can be a deadlock.

Two things are assumed.  Every statement locks its rows in one order, that of the
slots: a database is free to choose another one, and two statements that lock the
same rows in opposite orders are a deadlock.  And every call gets a connection when it
asks for one.
-/
import Authnz.Basis.Waiting
import Authnz.Proofs.Custody

namespace Authnz

open Basis

variable {Reg Cred : Type}

/-- The row in slot `d` is in the way of the operation as long as somebody else holds it. -/
def InWay (w : World) (d : Nat) : Op → Prop
  | .sql (.visit i _ _) => i = d
  | .sql (.insert _ mk clash) => ∃ n s r, w.db[d]? = some s ∧
      (s.current = some r ∨ ∃ k, s.lock = some (k, some r)) ∧ clash (mk n) r = true
  | .update id _ => ∃ s u, w.db[d]? = some s ∧ s.current = some (.user u) ∧ u.id = id
  | _ => False

/-- Call `i` cannot go on before call `j` lets go of a row. -/
def WaitsFor (cfg : ServiceState Reg Cred) (i j : Nat) : Prop :=
  j ≠ i ∧ ∃ o d v, cfg.next i = some o ∧ InWay cfg.shared d o ∧ cfg.shared.db.Locked j d v

/-- The repository has to refuse the operation: there is no such user, or another one has the
name. -/
def MustRefuse (w : World) : Op → Prop
  | .update id dto => ((w.rows users).find? fun u => u.id == id).all (fun u =>
      (w.rows users).any fun v => v.id != id && users.clash (u.update dto) v) = true
  | _ => False

/-- Call `i` can carry out its next operation, without a failure. -/
def CanGoOn (jwt_svc : JwtService) (wa : Webauthn Reg Cred) (cfg : ServiceState Reg Cred)
    (i : Nat) : Prop :=
  ∃ ch cfg', ch ≠ Choice.fail ∧
    (∀ e, ch = .refuse e → ∃ o, cfg.next i = some o ∧ MustRefuse cfg.shared o) ∧
    (whole_service jwt_svc wa).next cfg (.step i ch) = some cfg'

section Operations

variable {c : Crates} {me : Nat} {w : World}

end Operations

section Runs

variable {jwt_svc : JwtService} {wa : Webauthn Reg Cred} {rows : List Record}
  {evs : ServiceEvents Reg Cred} {cfg : ServiceState Reg Cred} {i j k : Nat}
  {call : ServiceCall Reg Cred}

variable (hrun : (whole_service jwt_svc wa).run ⟨World.of rows, []⟩ evs = some cfg)

include hrun

end Runs

section Order

variable {jwt_svc : JwtService} {wa : Webauthn Reg Cred} {rows : List Record}
  {evs : ServiceEvents Reg Cred} {cfg : ServiceState Reg Cred}
  (hrun : (whole_service jwt_svc wa).run ⟨World.of rows, []⟩ evs = some cfg)

include hrun

end Order

/-- A reset for Alice is under way. -/
def alice_resetting : List Record :=
  [.user (sample_user "password"), .session sample_session,
    .password_reset (sample_reset (token_of 1))]

/-- Alice confirms the reset while an admin deletes her. -/
def confirming_while_deleted : ServiceEvents Passkey (List UInt8) :=
  .spawn (.route (.confirm_password_reset ⟨token_of 1, "violet ladder engine cactus"⟩)) ::
    .spawn (.delete_user (uuid_text 1) 7) ::
    serving 0 [.time 91, .go, .go, .go] ++ serving 1 [.identity as_alice, .go, .go, .go] ++
    serving 0 [.number 1, .go]

/-- **A deletion can be a deadlock**: it has Alice's row, which the confirmation waits for, and waits
for the row of the reset, which the confirmation has. -/
theorem deletion_deadlocks : ∃ cfg,
    (whole_service sample_jwt sample_webauthn).run ⟨World.of alice_resetting, []⟩
      confirming_while_deleted = some cfg ∧
    WaitsFor cfg 0 1 ∧ WaitsFor cfg 1 0 ∧
    ¬ CanGoOn sample_jwt sample_webauthn cfg 0 ∧ ¬ CanGoOn sample_jwt sample_webauthn cfg 1 := by
  refine ⟨_, rfl, ⟨by decide, _, 0, _, rfl, rfl, _, rfl, rfl⟩,
    ⟨by decide, _, 2, _, rfl, rfl, _, rfl, rfl⟩, ?_, ?_⟩
  · rintro ⟨ch, cfg', hch, -, hnext⟩
    cases ch with
    | fail => exact hch rfl
    | _ => cases hnext
  · rintro ⟨ch, cfg', hch, -, hnext⟩
    cases ch with
    | fail => exact hch rfl
    | _ => cases hnext

end Authnz
