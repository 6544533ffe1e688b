/-
Whom a challenge event is for.

The event a challenge publishes carries the link, the one-time password and the nonce
drawn for it, and nothing else.  The user it was released for goes into the caches
alone.  With the same draws, the challenges of any two accounts therefore publish one
and the same event, and confirming it lets in whoever it was released for.
-/
import Authnz.Model.Concurrent
import Authnz.Proofs.Accounts
import Authnz.Proofs.Authenticity

namespace Authnz

open Basis

/-- What one challenge draws. -/
structure ChallengeDraw where
  link_bytes : List UInt8
  nonce_bytes : List UInt8
  token : Nat
  link_drawn : link_bytes.length = 32
  nonce_drawn : nonce_bytes.length = 32
  token_drawn : 100000 ≤ token ∧ token < 999999

/-- What is published with these draws. -/
def ChallengeDraw.payload (D : ChallengeDraw) : ChallengeRequested :=
  ⟨D.token, base64url D.link_bytes, base64url D.nonce_bytes⟩

/-- What lies in the caches with these draws. -/
def ChallengeDraw.entry (D : ChallengeDraw) (user_id : Uuid) : FA2Entry :=
  ⟨base64url D.link_bytes, D.token, user_id, base64url D.nonce_bytes⟩

/-- The event that carries a payload. -/
def ChallengeRequested.event (payload : ChallengeRequested) : Event :=
  .challenge_requested payload.token payload.link payload.nonce

/-- The two ways to ask for a challenge. -/
inductive ChallengeBy where
  | by_email (email : String)
  | by_username (username : String)

def ChallengeBy.code : ChallengeBy → Service PasswdlessError Unit
  | .by_email email => PasswdlessService.challenge_by_email email
  | .by_username username => PasswdlessService.challenge_by_username username

/-- The call asks for a challenge of this account. -/
def ChallengeBy.names (u : User) : ChallengeBy → Prop
  | .by_email email => u.email = email
  | .by_username username => u.username = username

/-- The call has published `payload`, for a challenge of `user_id` that confirming it would redeem. -/
structure Published (w w' : World) (payload : ChallengeRequested) (user_id : Uuid) : Prop where
  event : w'.rows outbox = w.rows outbox ++ [payload.event]
  link : w'.links payload.link = some ⟨payload.link, payload.token, user_id, payload.nonce⟩
  nonce : w'.tokens payload.nonce = some ⟨payload.link, payload.token, user_id, payload.nonce⟩

section Publishing

variable {c : Crates} {w : World} {u : User}

theorem exec_lift {ε α : Type} {p : Handler α} {a : α} {w' : World}
    (h : Prog.Exec (World.answer c) 0 Anyhow p w a w') :
    Prog.Exec (World.answer c) 0 Anyhow (ExceptT.lift p : Service ε α).run w (.ok a) w' :=
  Prog.exec_bind.mpr ⟨a, w', h, .ret _ _⟩

theorem release_pair_runs (D : ChallengeDraw) (user_id : Uuid) (w : World) :
    Prog.Exec (World.answer c) 0 Anyhow (PasswdlessService.release_pair user_id) w D.payload
      { w with
        tokens := Function.update w.tokens (base64url D.nonce_bytes) (some (D.entry user_id))
        links := Function.update w.links (base64url D.link_bytes) (some (D.entry user_id)) } := by
  have hfill : ∀ {bytes : List UInt8}, bytes.length = 32 →
      Prog.Exec (World.answer c) 0 Anyhow generate_raw_token w (base64url bytes) w := by
    intro bytes hlen
    have hans : World.answer c 0 (.fill 32) (.bytes bytes) w = some (w, bytes) := if_pos hlen
    exact .ask trivial hans (.ret _ _)
  have hotp : World.answer c 0 (.random_range 100000 999999) (.number D.token) w =
      some (w, D.token) := if_pos D.token_drawn
  have hput : ∀ (k : String) (e : FA2Entry) (w : World), World.answer c 0 (.tokens_insert k e) .go w =
      some ({ w with tokens := Function.update w.tokens k (some e) }, ()) := fun _ _ _ => rfl
  have hput' : ∀ (k : String) (e : FA2Entry) (w : World), World.answer c 0 (.links_insert k e) .go w =
      some ({ w with links := Function.update w.links k (some e) }, ()) := fun _ _ _ => rfl
  exact Prog.exec_bind.mpr ⟨_, w, hfill D.link_drawn, Prog.exec_bind.mpr ⟨_, w, hfill D.nonce_drawn,
    .ask trivial hotp (.ask trivial (hput _ _ _) (.ask trivial (hput' _ _ _) (.ret _ _)))⟩⟩

theorem publish_challenge_runs (payload : ChallengeRequested) (hset : w.Settled 0) : ∃ w',
    Prog.Exec (World.answer c) 0 Anyhow (PasswdlessService.publish_challenge payload).run w
      (.ok ()) w' ∧ w' = { w with db := w'.db } ∧
      w'.places = w.places ++ [some (.event payload.event)] := by
  have hins : World.answer c 0 (.sql (.insert .tx (fun _ => outbox.inj payload.event)
      outbox.clashes)) .go w =
      some ({ w with db := w.db ++ [Slot.fresh 0 (.event payload.event)] },
        Except.ok (.event payload.event)) := by
    have hnone : ∀ x : Option Record, x.any (outbox.clashes (.event payload.event)) = false := by
      intro x
      cases x with
      | none => rfl
      | some r => cases r <;> rfl
    have hdup : SqlOp.duplicate 0 (outbox.clashes (.event payload.event)) w.db = false :=
      List.any_eq_false.mpr fun s _ => by rw [hnone, Bool.and_false]; exact Bool.false_ne_true
    have hcon : SqlOp.contended 0 (outbox.clashes (.event payload.event)) w.db = false :=
      List.any_eq_false.mpr fun s _ => by
        rw [hnone, hnone, Bool.or_false, Bool.and_false]
        exact Bool.false_ne_true
    have hdb : SqlOp.answer 0 (.insert .tx (fun _ => outbox.inj payload.event) outbox.clashes)
        (.done 0) w.db = some (w.db ++ [Slot.fresh 0 (.event payload.event)],
          Except.ok (.event payload.event)) :=
      (if_neg (Bool.eq_false_iff.mp hdup)).trans (if_neg (Bool.eq_false_iff.mp hcon))
    change World.answerSql 0 _ .go w = _
    simp only [World.answerSql, World.outcome, hdb]
    rfl
  refine ⟨{ w with db := ((w.db ++ [Slot.fresh 0 (Record.event payload.event)]).map
    (Slot.commit 0)).map (Slot.rollback 0) }, ?_, rfl, ?_⟩
  · refine Prog.exec_bindE.mpr (.inl ⟨(), w, .ask trivial (World.begin_goes w) (.ret _ _), ?_⟩)
    refine Prog.exec_bind.mpr ⟨.ok (), { w with
      db := (w.db ++ [Slot.fresh 0 (Record.event payload.event)]).map (Slot.commit 0) }, ?_,
      .ask trivial (World.rollback_goes _) (.ret _ _)⟩
    exact .ask trivial hins (.ask trivial (World.commit_goes _) (.ret _ _))
  · rw [places_eq 0, places_eq 0, ← hset]
    change (Table.desk 0 (List.map (Slot.rollback 0) _)).committed = _
    rw [Table.desk_rollback, Table.desk_commit, Table.desk_insert]
    rfl

/-- With any draws, either call can be made for the account it names, and publishes them. -/
theorem challenge_of_runs (D : ChallengeDraw) (hset : w.Settled 0) {find : Service AuthError User}
    (hfind : Prog.Exec (World.answer c) 0 Anyhow find.run w (.ok u) w) : ∃ w',
    Prog.Exec (World.answer c) 0 Anyhow (challenge_of find).run w (.ok ()) w' ∧
      Published w w' D.payload u.id := by
  have hset₁ : { w with
      tokens := Function.update w.tokens (base64url D.nonce_bytes) (some (D.entry u.id))
      links := Function.update w.links (base64url D.link_bytes) (some (D.entry u.id)) }.Settled 0 :=
    hset
  obtain ⟨w', hpub, hw', hplaces⟩ := publish_challenge_runs (c := c) D.payload hset₁
  refine ⟨w', Prog.exec_bindE.mpr (.inl ⟨.ok u, w, exec_lift hfind, Prog.exec_bindE.mpr
    (.inl ⟨D.payload, _, exec_lift (release_pair_runs D u.id w), hpub⟩)⟩), ?_, ?_, ?_⟩
  · rw [rows_of_places, rows_of_places, hplaces, List.filterMap_append, List.filterMap_append]
    rfl
  · rw [hw']
    exact Function.update_self _ _ _
  · rw [hw']
    exact Function.update_self _ _ _

/-- The lookup of an account by what is its own finds it. -/
theorem lookup_finds (hset : w.Settled 0) {q : User → Bool} (hu : u ∈ w.rows users)
    (hq : q u = true) (honly : ∀ v ∈ w.rows users, q v = true → v = u) :
    Prog.Exec (World.answer c) 0 Anyhow (lookup q).run w (.ok u) w := by
  refine (exec_lookup.mpr ⟨rfl, ?_⟩).mono fun _ _ _ _ => (trivial : Anyhow _ _ _)
  cases hrows : (w.sees 0 users).filter q with
  | nil =>
      have hin : u ∈ (w.sees 0 users).filter q :=
        List.mem_filter.mpr ⟨(mem_sees_rows hset).mpr hu, hq⟩
      rw [hrows] at hin
      cases hin
  | cons v rest =>
      obtain ⟨hv, hvq⟩ := List.mem_filter.mp (hrows ▸ List.mem_cons_self)
      rw [honly v ((mem_sees_rows hset).mp hv) hvq]

/-- With any draws a call can be made for the account it names.  It publishes the draws, and
confirming them lets that account in. -/
theorem challenge_runs (D : ChallengeDraw) (u : User) (call : ChallengeBy) (hset : w.Settled 0)
    (hunique : ∀ v ∈ w.rows users, users.clash v u = true → v = u) (hu : u ∈ w.rows users)
    (hcall : call.names u) : ∃ w' w'',
    Prog.Exec (World.answer c) 0 Anyhow call.code.run w (.ok ()) w' ∧
      Published w w' D.payload u.id ∧
      Prog.Exec (World.answer c) 0 Anyhow (PasswdlessService.confirm_link D.payload.link).run w'
        (.ok u.id) w'' := by
  have hrun : ∃ w', Prog.Exec (World.answer c) 0 Anyhow call.code.run w (.ok ()) w' ∧
      Published w w' D.payload u.id := by
    cases call with
    | by_email email =>
        refine challenge_of_runs D hset (lookup_finds hset hu (beq_iff_eq.mpr hcall) ?_)
        exact fun v hv hq => hunique v hv (by
          simp [users, (beq_iff_eq.mp hq).trans (Eq.symm hcall)])
    | by_username username =>
        refine challenge_of_runs D hset (lookup_finds hset hu (beq_iff_eq.mpr hcall) ?_)
        exact fun v hv hq => hunique v hv (by
          simp [users, (beq_iff_eq.mp hq).trans (Eq.symm hcall)])
  obtain ⟨w', hrun, hpub⟩ := hrun
  have htake : World.answer c 0 (.links_remove D.payload.link) .go w' =
      some ({ w' with links := Function.update w'.links D.payload.link none },
        some ⟨D.payload.link, D.payload.token, u.id, D.payload.nonce⟩) := by
    rw [← hpub.link]
    rfl
  exact ⟨w', _, hrun, hpub, .ask trivial htake (Prog.exec_ask.mpr
    ⟨.go, _, _, trivial, rfl, .ret _ _⟩)⟩

end Publishing

/-- **No function of the payload names the recipient.** Whatever is drawn, and whatever two
accounts there are: of any function from payloads to users, a challenge for one of the two shows
that it is wrong. -/
theorem no_recipient (c : Crates) (f : ChallengeRequested → Uuid) (D : ChallengeDraw) (w : World)
    (hset : w.Settled 0)
    (hunique : ∀ a ∈ w.rows users, ∀ b ∈ w.rows users, users.clash a b = true → a = b)
    (u v : User) (hu : u ∈ w.rows users) (hv : v ∈ w.rows users) (hne : u.id ≠ v.id)
    (call call' : ChallengeBy) (hcall : call.names u) (hcall' : call'.names v) :
    ∃ x w' w'', (x = (u, call) ∨ x = (v, call')) ∧
      Prog.Exec (World.answer c) 0 Anyhow x.2.code.run w (.ok ()) w' ∧
      Published w w' D.payload x.1.id ∧
      Prog.Exec (World.answer c) 0 Anyhow (PasswdlessService.confirm_link D.payload.link).run w'
        (.ok x.1.id) w'' ∧ f D.payload ≠ x.1.id := by
  by_cases hf : f D.payload = u.id
  · obtain ⟨w', w'', hrun, hpub, hconfirm⟩ := challenge_runs (c := c) D v call' hset
      (fun a ha hc => hunique a ha v hv hc) hv hcall'
    exact ⟨(v, call'), w', w'', .inr rfl, hrun, hpub, hconfirm, fun h => hne (hf.symm.trans h)⟩
  · obtain ⟨w', w'', hrun, hpub, hconfirm⟩ := challenge_runs (c := c) D u call hset
      (fun a ha hc => hunique a ha u hu hc) hu hcall
    exact ⟨(u, call), w', w'', .inl rfl, hrun, hpub, hconfirm, hf⟩

/-! ### Alice and Bob -/

def sample_bob : User :=
  { sample_user "old password" with id := 8, username := "bob", email := "bob@example.com" }

def alice_and_bob : World := World.of [.user (sample_user "old password"), .user sample_bob]

def sample_draw : ChallengeDraw :=
  { link_bytes := List.replicate 32 1, nonce_bytes := List.replicate 32 2, token := 123456,
    link_drawn := rfl, nonce_drawn := rfl, token_drawn := by decide }

theorem alice_and_bob_unique : ∀ a ∈ alice_and_bob.rows users, ∀ b ∈ alice_and_bob.rows users,
    users.clash a b = true → a = b := by decide

/-- That every event is for Alice, say, is wrong for one of the two. -/
theorem no_recipient_for_alice : ∃ x w' w'',
    (x = (sample_user "old password", ChallengeBy.by_username "alice") ∨
      x = (sample_bob, ChallengeBy.by_email "bob@example.com")) ∧
    Prog.Exec (World.answer sample_crates) 0 Anyhow x.2.code.run alice_and_bob (.ok ()) w' ∧
    Published alice_and_bob w' sample_draw.payload x.1.id ∧
    Prog.Exec (World.answer sample_crates) 0 Anyhow
      (PasswdlessService.confirm_link sample_draw.payload.link).run w' (.ok x.1.id) w'' ∧
    (fun _ : ChallengeRequested => (7 : Uuid)) sample_draw.payload ≠ x.1.id :=
  no_recipient sample_crates (fun _ => 7) sample_draw alice_and_bob (settled_of 0 _)
    alice_and_bob_unique (sample_user "old password") sample_bob (by decide) (by decide) (by decide)
    (.by_username "alice") (.by_email "bob@example.com") rfl rfl

/-- **One event for two users.** The same draws publish the same event for Alice and for Bob, so no
function of the payload gives the recipient. -/
theorem one_event_for_two : ∃ w₁ w₂,
    Prog.Exec (World.answer sample_crates) 0 Anyhow
      (PasswdlessService.challenge_by_username "alice").run alice_and_bob (.ok ()) w₁ ∧
    Published alice_and_bob w₁ sample_draw.payload 7 ∧
    Prog.Exec (World.answer sample_crates) 0 Anyhow
      (PasswdlessService.challenge_by_email "bob@example.com").run alice_and_bob (.ok ()) w₂ ∧
    Published alice_and_bob w₂ sample_draw.payload 8 ∧
    ¬ ∃ f : ChallengeRequested → Uuid, f sample_draw.payload = 7 ∧ f sample_draw.payload = 8 := by
  obtain ⟨w₁, -, hrun₁, hpub₁, -⟩ := challenge_runs (c := sample_crates) (w := alice_and_bob)
    sample_draw (sample_user "old password") (.by_username "alice") (settled_of 0 _)
    (fun a ha hc => alice_and_bob_unique a ha _ (by decide) hc) (by decide) rfl
  obtain ⟨w₂, -, hrun₂, hpub₂, -⟩ := challenge_runs (c := sample_crates) (w := alice_and_bob)
    sample_draw sample_bob (.by_email "bob@example.com") (settled_of 0 _)
    (fun a ha hc => alice_and_bob_unique a ha _ (by decide) hc) (by decide) rfl
  exact ⟨w₁, w₂, hrun₁, hpub₁, hrun₂, hpub₂, fun ⟨_, h7, h8⟩ => nomatch h7.symm.trans h8⟩

end Authnz
