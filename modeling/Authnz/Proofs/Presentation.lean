/-
Tokens on their way to the client and back.

A raw token is the base64 text of 32 random bytes: 43 digits, no blank among them, and another text
for every other draw.  `refresh` and `logout` trim what they are given, so whatever blanks a client
puts around a token, what they hash is the text `issue_token_pair` hashed, and their work from the
hash on does not depend on how the token was presented.
-/
import Authnz.Model.Requests
import Authnz.Model.Sample
import Authnz.Proofs.Tokens

namespace Authnz

open Basis

/-! ### From the hash on -/

namespace JwtService

variable (self : JwtService)

/-- What `refresh` does once it has hashed the token. -/
def refresh_by_hash (hash : String) : Service JwtError JwtResult := do
  attempt JwtError.Database begin_tx
  in_tx do
    let row ← get_refresh_token_by_hash hash
    if row.revoked then
      throw .RefreshTokenNotFound
    if row.expires_at < (← utc_now) then
      throw .RefreshTokenExpired
    let user ← attempt (fun _ => JwtError.UserNotFound) (ask (.retrieve row.user_id))
    delete_refresh_token_by_hash .tx hash
    let result ← self.issue_token_pair_with .tx user.id row.issuer
    attempt JwtError.Database commit_tx
    return result

/-- What `logout` does once it has hashed the token. -/
def logout_by_hash (hash : String) : Service JwtError Unit :=
  ExceptT.mk do
    match ← (revoke_refresh_token_by_hash hash).run with
    | .ok () => return .ok ()
    | .error .RefreshTokenNotFound => return .ok ()
    | .error e => return .error e

theorem refresh_eq (cmd : RefreshCmd) : self.refresh cmd =
    if (trim cmd.refresh_token).isEmpty then throw .MissingRefreshToken
    else self.refresh_by_hash (hash_token self.crates (trim cmd.refresh_token)) := rfl

theorem logout_eq (cmd : LogoutCmd) : self.logout cmd =
    if (trim cmd.refresh_token).isEmpty then throw .MissingRefreshToken
    else logout_by_hash (hash_token self.crates (trim cmd.refresh_token)) := rfl

end JwtService

/-! ### Never taken for no token -/

section Refusals

variable {ε ε' α : Type} {e : ε}

theorem yields_attempt {err : ε' → ε} (h : ∀ x, err x ≠ e) (p : Handler (Except ε' α)) :
    (attempt err p).run.Yields (· ≠ .error e) := by
  refine Prog.yields_bind p fun r => ?_
  cases r with
  | ok a =>
      intro hr
      cases hr
  | error x =>
      intro hr
      cases hr
      exact h x rfl

theorem yields_lift (p : Handler α) : (liftM p : Service ε α).run.Yields (· ≠ .error e) := by
  refine Prog.yields_bind p fun a => ?_
  intro hr
  cases hr

theorem yields_in_tx {body : Service ε α} (h : body.run.Yields (· ≠ .error e)) :
    (in_tx body).run.Yields (· ≠ .error e) :=
  Prog.yields_bind_of h fun _ hr _ => hr

theorem yields_ret (a : α) : (pure a : Service ε α).run.Yields (· ≠ .error e) := by
  intro hr
  cases hr

theorem yields_throw {x : ε} (h : x ≠ e) : (throw x : Service ε α).run.Yields (· ≠ .error e) := by
  intro hr
  cases hr
  exact h rfl

end Refusals

theorem refresh_by_hash_yields (self : JwtService) (hash : String) :
    (self.refresh_by_hash hash).run.Yields (· ≠ .error .MissingRefreshToken) := by
  have hdb : ∀ x, JwtError.Database x ≠ .MissingRefreshToken := fun x h => by cases h
  have hissue : ∀ user_id issuer, (self.issue_token_pair_with .tx user_id issuer).run.Yields
      (· ≠ .error .MissingRefreshToken) := by
    intro user_id issuer
    refine Prog.yields_bindE (yields_attempt (fun _ h => by cases h) _) fun access => ?_
    refine Prog.yields_bindE (yields_lift _) fun raw => ?_
    refine Prog.yields_bindE (yields_lift _) fun t => ?_
    refine Prog.yields_bindE (yields_lift _) fun now => ?_
    exact Prog.yields_bindE (yields_attempt hdb _) fun _ => yields_ret _
  have hlookup : (JwtService.get_refresh_token_by_hash hash).run.Yields
      (· ≠ .error .MissingRefreshToken) := by
    refine Prog.yields_bindE (yields_attempt (fun _ h => by cases h) _) fun rows => ?_
    cases rows with
    | nil => exact yields_throw fun h => by cases h
    | cons r rest =>
        cases hr : r.revoked with
        | none =>
            dsimp only
            rw [hr]
            exact yields_throw fun h => by cases h
        | some revoked =>
            dsimp only
            rw [hr]
            exact yields_ret _
  refine Prog.yields_bindE (yields_attempt hdb _) fun _ => yields_in_tx ?_
  refine Prog.yields_bindE hlookup fun row => ?_
  by_cases hr : row.revoked = true
  · rw [if_pos hr]
    exact yields_throw fun h => by cases h
  rw [if_neg hr]
  refine Prog.yields_bindE (yields_lift _) fun now => ?_
  by_cases hx : row.expires_at < now
  · rw [if_pos hx]
    exact yields_throw fun h => by cases h
  rw [if_neg hx]
  refine Prog.yields_bindE (yields_attempt (fun _ h => by cases h) _) fun user => ?_
  refine Prog.yields_bindE (Prog.yields_bindE (yields_attempt hdb _) fun _ => yields_ret _)
    fun _ => ?_
  refine Prog.yields_bindE (hissue user.id row.issuer) fun result => ?_
  exact Prog.yields_bindE (yields_attempt hdb _) fun _ => yields_ret _

theorem logout_by_hash_yields (hash : String) :
    (JwtService.logout_by_hash hash).run.Yields (· ≠ .error .MissingRefreshToken) := by
  have hrevoke : (JwtService.revoke_refresh_token_by_hash hash).run.Yields
      (· ≠ .error .MissingRefreshToken) := by
    refine Prog.yields_bindE (yields_attempt (fun _ h => by cases h) _) fun rows => ?_
    by_cases hl : rows.length = 0
    · rw [if_pos hl]
      exact yields_throw fun h => by cases h
    · rw [if_neg hl]
      exact yields_ret _
  refine Prog.yields_bind_of hrevoke fun r hr => ?_
  rcases r with e | u
  · cases e with
    | MissingRefreshToken => exact absurd rfl hr
    | RefreshTokenNotFound =>
        intro h
        cases h
    | _ =>
        intro h
        cases h
  · intro h
    cases h

/-! ### The draws -/

/-- The random bytes this run draws. -/
def Drawing (bytes : List UInt8) (_ : World) (o : Op) (ch : Choice) : Prop :=
  ∀ n, o = .fill n → ch = .bytes bytes

/-- The form of a raw token. -/
structure RawToken (raw : String) : Prop where
  length : raw.length = 43
  url_safe : ∀ ch ∈ raw.toList, isUrlSafe ch = true

/-- The token with blanks around it. -/
def Padded (raw text : String) : Prop :=
  ∃ before after : String, (∀ ch ∈ before.toList, isWhite ch = true) ∧
    (∀ ch ∈ after.toList, isWhite ch = true) ∧ text = before ++ raw ++ after

section Draws

variable {c : Crates} {me : Nat} {admits : World → Op → Choice → Prop} {w : World}

theorem rawToken_of_bytes {bytes : List UInt8} (h : bytes.length = 32) :
    RawToken (base64url bytes) :=
  ⟨by rw [base64url_length, h], fun _ hch => base64url_url_safe hch⟩

theorem generate_raw_token_ends {Q : World → String → Prop}
    (hQ : ∀ bytes : List UInt8, bytes.length = 32 → admits w (.fill 32) (.bytes bytes) →
      Q w (base64url bytes)) : Ends c me admits generate_raw_token w Q := by
  refine ends_bind (ends_ask fun ch w' bytes hch hans => ?_)
  obtain ⟨rfl, rfl⟩ := World.answer_fill hans
  have hlen : bytes.length = 32 := (Option.ite_none_right_eq_some.mp hans).1
  exact ends_ret (hQ bytes hlen hch)

/-- A run of `generate_raw_token` writes out what it has drawn. -/
theorem drawn_of_exec {bytes : List UInt8} {raw : String} {w' : World}
    (h : Prog.Exec (World.answer c) me (Drawing bytes) generate_raw_token w raw w') :
    bytes.length = 32 ∧ raw = base64url bytes := by
  refine generate_raw_token_ends (Q := fun _ raw => bytes.length = 32 ∧ raw = base64url bytes)
    (fun drawn hlen hch => ?_) raw w' h
  obtain rfl : drawn = bytes := Choice.bytes.inj (hch 32 rfl)
  exact ⟨hlen, rfl⟩

theorem exec_of_drawn {bytes : List UInt8} (h : bytes.length = 32) (w : World) :
    Prog.Exec (World.answer c) me (Drawing bytes) generate_raw_token w (base64url bytes) w := by
  have hans : World.answer c me (.fill 32) (.bytes bytes) w = some (w, bytes) := if_pos h
  exact .ask (fun _ _ => rfl) hans (.ret _ _)

theorem issue_token_pair_with_draws (self : JwtService) (ex : Executor) (user_id : Uuid)
    (issuer : String) :
    EndsE c me admits (self.issue_token_pair_with ex user_id issuer) w
      (fun _ res => ∃ bytes : List UInt8, bytes.length = 32 ∧ res.refresh_token = base64url bytes)
      fun _ _ => True := by
  refine endsE_bind (endsE_attempt (ends_quiet trivial fun w₁ r _ => ?_))
  change Except String String at r
  cases r with
  | error e => trivial
  | ok access_token =>
      refine endsE_bind (endsE_lift (generate_raw_token_ends fun bytes hlen _ => ?_))
      refine endsE_bind (endsE_lift (ends_now fun t₁ => ?_))
      refine endsE_bind (endsE_lift (ends_now fun t₂ => ?_))
      exact endsE_bind (endsE_insert (fun _ _ _ _ _ => endsE_ret ⟨bytes, hlen, rfl⟩)
        (fun _ _ => trivial) fun _ => trivial)

end Draws

/-! ### The way back -/

/-- `refresh` and `logout` take the text for the token of this hash. -/
structure Recognised (self : JwtService) (hash text : String) : Prop where
  refresh : self.refresh ⟨text⟩ = self.refresh_by_hash hash
  logout : self.logout ⟨text⟩ = JwtService.logout_by_hash hash
  refresh_kept : (self.refresh ⟨text⟩).run.Yields (· ≠ .error .MissingRefreshToken)
  logout_kept : (self.logout ⟨text⟩).run.Yields (· ≠ .error .MissingRefreshToken)

theorem recognised_of_padded {self : JwtService} {bytes : List UInt8} {text : String}
    (hlen : bytes.length = 32) (h : Padded (base64url bytes) text) :
    Recognised self (hash_token self.crates (base64url bytes)) text := by
  obtain ⟨before, after, hbefore, hafter, rfl⟩ := h
  have htrim := trim_base64url_padded bytes hbefore hafter
  have hne : bytes ≠ [] := by
    intro h
    rw [h] at hlen
    cases hlen
  have hempty : ¬ (base64url bytes).isEmpty = true := by rw [base64url_isEmpty hne]; decide
  have hrefresh : self.refresh ⟨before ++ base64url bytes ++ after⟩ =
      self.refresh_by_hash (hash_token self.crates (base64url bytes)) := by
    rw [JwtService.refresh_eq, htrim, if_neg hempty]
  have hlogout : self.logout ⟨before ++ base64url bytes ++ after⟩ =
      JwtService.logout_by_hash (hash_token self.crates (base64url bytes)) := by
    rw [JwtService.logout_eq, htrim, if_neg hempty]
  refine ⟨hrefresh, hlogout, ?_, ?_⟩
  · rw [hrefresh]
    exact refresh_by_hash_yields self _
  · rw [hlogout]
    exact logout_by_hash_yields _

/-- **Issued tokens survive presentation.**  Every draw makes a token of 43 characters that need no
escape, another one for another draw; and whatever blanks a client puts around the token it was
issued, `refresh` and `logout` work on the hash that was stored and never miss the token. -/
theorem issued_tokens_survive (self : JwtService) (c : Crates) (me : Nat) :
    (∀ (bytes : List UInt8) (w : World), bytes.length = 32 →
      ∃ raw, Prog.Exec (World.answer c) me (Drawing bytes) generate_raw_token w raw w) ∧
    (∀ (bytes : List UInt8) (w w' : World) (raw : String),
      Prog.Exec (World.answer c) me (Drawing bytes) generate_raw_token w raw w' → RawToken raw) ∧
    (∀ (bytes bytes' : List UInt8) (w₁ w₁' w₂ w₂' : World) (raw raw' : String),
      Prog.Exec (World.answer c) me (Drawing bytes) generate_raw_token w₁ raw w₁' →
      Prog.Exec (World.answer c) me (Drawing bytes') generate_raw_token w₂ raw' w₂' →
      bytes ≠ bytes' → raw ≠ raw') ∧
    ∀ (ex : Executor) (user_id : Uuid) (issuer : String) (w w' : World) (res : JwtResult),
      Prog.Exec (World.answer c) me Anyhow (self.issue_token_pair_with ex user_id issuer).run w
        (.ok res) w' →
      RawToken res.refresh_token ∧ ∃ t, RowFor self.crates user_id issuer res t ∧
        w'.db.desk me = ((w.db.desk me).insert (.refresh_token t)).settle ex ∧
        ∀ text, Padded res.refresh_token text → Recognised self t.token_hash text := by
  refine ⟨fun bytes w hlen => ⟨_, exec_of_drawn hlen w⟩, fun bytes w w' raw h => ?_,
    fun bytes bytes' w₁ w₁' w₂ w₂' raw raw' h h' hne heq => ?_,
    fun ex user_id issuer w w' res h => ?_⟩
  · obtain ⟨hlen, rfl⟩ := drawn_of_exec h
    exact rawToken_of_bytes hlen
  · obtain ⟨-, rfl⟩ := drawn_of_exec h
    obtain ⟨-, rfl⟩ := drawn_of_exec h'
    exact hne (base64url_injective heq)
  · obtain ⟨t, hrow, hdesk⟩ := issue_token_pair_with_ends ex user_id issuer (.ok res) w' h
    obtain ⟨bytes, hlen, hraw⟩ := issue_token_pair_with_draws self ex user_id issuer (.ok res) w' h
    rw [hraw]
    refine ⟨rawToken_of_bytes hlen, t, hrow, hdesk, fun text htext => ?_⟩
    rw [hrow.hash, hraw]
    exact recognised_of_padded hlen htext

/-- Alice's client puts a blank before her token and a line break after it. -/
theorem issued_token_survives_for_alice : ∃ (w' : World) (t : RefreshToken),
    Prog.Exec (World.answer sample_crates) 0 Anyhow (sample_jwt.issue_token_pair 7 "session").run
      (World.of [.user (sample_user "password")]) (.ok ⟨"jwt", token_of 1, 600⟩) w' ∧
    t.token_hash = hash_token sample_crates (token_of 1) ∧
    Recognised sample_jwt t.token_hash (" " ++ token_of 1 ++ "\n") := by
  have hcall : ∃ w', Prog.exec? (World.answer sample_crates) 0 (fun _ _ _ => true)
      [.text "jwt", .bytes (List.replicate 32 1), .time 0, .time 0, .go]
      (sample_jwt.issue_token_pair 7 "session").run (World.of [.user (sample_user "password")]) =
        some (.ok ⟨"jwt", token_of 1, 600⟩, w') := ⟨_, rfl⟩
  obtain ⟨w', hw'⟩ := hcall
  have hrun : Prog.Exec (World.answer sample_crates) 0 Anyhow
      (sample_jwt.issue_token_pair 7 "session").run (World.of [.user (sample_user "password")])
      (.ok ⟨"jwt", token_of 1, 600⟩) w' := (Prog.exec_of_exec? hw').mono fun _ _ _ _ => trivial
  obtain ⟨-, -, -, hissued⟩ := issued_tokens_survive sample_jwt sample_crates 0
  obtain ⟨-, t, hrow, -, htext⟩ := hissued .pool 7 "session" _ _ _ hrun
  have hblank : ∀ ch ∈ " ".toList, isWhite ch = true := List.all_eq_true.mp (by decide)
  have hbreak : ∀ ch ∈ "\n".toList, isWhite ch = true := List.all_eq_true.mp (by decide)
  exact ⟨w', t, hrun, hrow.hash, htext _ ⟨" ", "\n", hblank, hbreak, rfl⟩⟩

end Authnz
