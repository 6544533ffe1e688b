/-
What becomes of accounts, tokens and passkeys, whatever else is in progress.

Every row of these tables has a `Life`: who added it on what grounds, and for each
later version which call made what of the one before.  An account keeps its id, its
email and its creation time for good, and gets another hash only from a call with a
strong password that had shown the old one or held a reset token; a refresh token
keeps its owner and stays revoked; a reset token stays used; a passkey stays with its
owner.
-/
import Authnz.Proofs.Earning

namespace Authnz

open Basis

variable {Reg Cred : Type}

/-! ### Accounts -/

section Accounts

variable (jwt_svc : JwtService) (wa : Webauthn Reg Cred) (rows : List Record)
  (evs : ServiceEvents Reg Cred) (cfg : ServiceState Reg Cred)

/-- The call was let in as this user and has proof of the user's password. -/
def Reauthenticated (k : Nat) (cookie password : String) (id : Uuid) : Prop :=
  ∃ who u, Authenticated (cfg.log k) cookie who ∧ who.sub = id ∧
    KnewPassword jwt_svc wa rows evs k password u ∧ u.id = id

/-- Who may give a user a new password, and the hashes it may have. -/
inductive SetsPassword (k : Nat) (id : Uuid) : String → Prop
  | change_password {cookie req params} (salt : Nat)
      (hcall : cfg.call k = some (.route (.change_password cookie req params)))
      (hstrong : 3 ≤ jwt_svc.crates.zxcvbn_score req.new_password)
      (hshown : Reauthenticated jwt_svc wa rows evs cfg k cookie req.current_password id) :
      SetsPassword k id (jwt_svc.crates.bcrypt_hash req.new_password salt)
  | confirm_password_reset {payload p} (salt : Nat)
      (hcall : cfg.call k = some (.route (.confirm_password_reset payload)))
      (hstrong : 3 ≤ jwt_svc.crates.zxcvbn_score payload.new_password)
      (hheld : HeldReset jwt_svc wa rows evs cfg k payload.token p) (hid : p.user_id = id) :
      SetsPassword k id (jwt_svc.crates.bcrypt_hash payload.new_password salt)

/-- The call is taking everything of this user away; it has been let in as somebody. -/
def DeletesUser (k : Nat) (id : Uuid) : Prop :=
  ∃ cookie who, cfg.call k = some (.delete_user cookie id) ∧ Authenticated (cfg.log k) cookie who

/-- The call is changing this user through the admin viewset; it has been let in as somebody. -/
def EditsUser (k : Nat) (id : Uuid) (dto : UpdateUser) : Prop :=
  ∃ cookie who, cfg.call k = some (.route (.update_user cookie id dto)) ∧
    Authenticated (cfg.log k) cookie who

/-- The call has answered a challenge some call has drawn for this user. -/
inductive ConfirmsEmail (k : Nat) (id : Uuid) : Prop
  | confirm {link params e} (hcall : cfg.call k = some (.route (.confirm link params)))
      (hasked : Challenged jwt_svc wa rows evs cfg e) (hlink : e.link = link)
      (htaken : ⟨.links_remove link, some e⟩ ∈ cfg.log k) (hid : e.email = id)
  | confirm_token {token nonce params e}
      (hcall : cfg.call k = some (.route (.confirm_token token nonce params)))
      (hasked : Challenged jwt_svc wa rows evs cfg e) (hnonce : e.nonce = nonce)
      (htaken : ⟨.tokens_remove nonce, some e⟩ ∈ cfg.log k) (htoken : e.token = token)
      (hid : e.email = id)

/-- What a call may make of an account. -/
structure AccountKept (k : Nat) (u v : User) : Prop where
  id : v.id = u.id
  email : v.email = u.email
  created_at : v.created_at = u.created_at
  password_hash : v.password_hash = u.password_hash ∨
    SetsPassword jwt_svc wa rows evs cfg k u.id v.password_hash
  username : v.username = u.username ∨
    ∃ dto, EditsUser cfg k u.id dto ∧ dto.username = some v.username
  email_confirmed : v.email_confirmed = u.email_confirmed ∨
    (∃ dto, EditsUser cfg k u.id dto ∧ dto.email_confirmed = some v.email_confirmed) ∨
    (v.email_confirmed = true ∧ ConfirmsEmail jwt_svc wa rows evs cfg k u.id)

def AccountChange (k : Nat) (u : User) : Option User → Prop
  | some v => AccountKept jwt_svc wa rows evs cfg k u v
  | none => DeletesUser cfg k u.id

/-- Where an account comes from: it was in slot `d` from the start, or has been registered. -/
inductive Registered (d : Nat) : Option Nat → User → Prop
  | first {u} (h : rows[d]? = some (.user u)) : Registered d none u
  | register {k req u} (salt : Nat) (hcall : cfg.call k = some (.route (.register req)))
      (hvalid : req.validate jwt_svc.crates = true)
      (hstrong : 3 ≤ jwt_svc.crates.zxcvbn_score req.password) (hname : u.username = req.username)
      (hemail : u.email = req.email)
      (hhash : u.password_hash = jwt_svc.crates.bcrypt_hash req.password salt)
      (hconfirmed : u.email_confirmed = false) : Registered d (some k) u

end Accounts

section AccountRuns

variable {jwt_svc : JwtService} {wa : Webauthn Reg Cred} {rows : List Record}
  {evs : ServiceEvents Reg Cred} {cfg : ServiceState Reg Cred} {k : Nat}
  {call : ServiceCall Reg Cred}

theorem AccountKept.trans {u v v' : User} (h : AccountKept jwt_svc wa rows evs cfg k u v)
    (h' : AccountKept jwt_svc wa rows evs cfg k v v') :
    AccountKept jwt_svc wa rows evs cfg k u v' := by
  have hid := h.id
  refine ⟨h'.id.trans hid, h'.email.trans h.email, h'.created_at.trans h.created_at, ?_, ?_, ?_⟩
  · rcases h'.password_hash with heq | hset
    · rw [heq]
      exact h.password_hash
    · exact .inr (hid ▸ hset)
  · rcases h'.username with heq | hedit
    · rw [heq]
      exact h.username
    · exact .inr (hid ▸ hedit)
  · rcases h'.email_confirmed with heq | hedit | ⟨htrue, hconfirm⟩
    · rw [heq]
      exact h.email_confirmed
    · exact .inr (.inl (hid ▸ hedit))
    · exact .inr (.inr ⟨htrue, hid ▸ hconfirm⟩)

theorem AccountChange.trans (k : Nat) (u v : User) (w : Option User)
    (h : AccountChange jwt_svc wa rows evs cfg k u (some v))
    (h' : AccountChange jwt_svc wa rows evs cfg k v w) :
    AccountChange jwt_svc wa rows evs cfg k u w := by
  have hkept : AccountKept jwt_svc wa rows evs cfg k u v := h
  cases w with
  | some v' => exact hkept.trans h'
  | none =>
      have hgone : DeletesUser cfg k v.id := h'
      rwa [hkept.id] at hgone

theorem account_edited {u : User} {dto : UpdateUser} (h : EditsUser cfg k u.id dto) :
    AccountKept jwt_svc wa rows evs cfg k u (u.update dto) := by
  refine ⟨rfl, rfl, rfl, .inl rfl, ?_, ?_⟩
  · cases hname : dto.username with
    | none => exact .inl (by simp [User.update, hname])
    | some name => exact .inr ⟨dto, h, by simp [User.update, hname]⟩
  · cases hconfirmed : dto.email_confirmed with
    | none => exact .inl (by simp [User.update, hconfirmed])
    | some b => exact .inr (.inl ⟨dto, h, by simp [User.update, hconfirmed]⟩)

variable (hrun : (whole_service jwt_svc wa).run ⟨World.of rows, []⟩ evs = some cfg)

include hrun

theorem reauthenticated_then {cookie : String} {req : ChangePasswordRequest}
    {params : SessionParams} {past : Replies} {id : Identity} {z : User}
    (hcall : cfg.call k = some (.route (.change_password cookie req params)))
    (hpast : past <:+ cfg.log k) (hauth : Authenticated past cookie id)
    (hfound : Found users (fun u => u.id == id.sub) past z)
    (hverify : jwt_svc.crates.bcrypt_verify req.current_password z.password_hash = some true) :
    Reauthenticated jwt_svc wa rows evs cfg k cookie req.current_password id.sub := by
  obtain ⟨hsaw, hz⟩ := found_then hrun hcall (hfound.later hpast)
  exact ⟨id, z, hpast.subset hauth, rfl, ⟨hsaw, hverify⟩, beq_iff_eq.mp hz⟩

omit hrun in
theorem deletes_then {cookie : String} {id : Uuid} {past : Replies} {who : Identity}
    (hcall : cfg.call k = some (.delete_user cookie id)) (hpast : past <:+ cfg.log k)
    (hauth : Authenticated past cookie who) : DeletesUser cfg k id :=
  ⟨cookie, who, hcall, hpast.subset hauth⟩

theorem confirms_then {id : Uuid} {past : Replies} (hcall : cfg.call k = some call)
    (hpast : past <:+ cfg.log k) (h : Confirms call past id) :
    ConfirmsEmail jwt_svc wa rows evs cfg k id := by
  cases h with
  | confirm htaken =>
      obtain ⟨hasked, hlink⟩ := link_challenged hrun
        (link_taken_then hrun hcall (hpast.subset htaken))
      exact .confirm hcall hasked hlink (hpast.subset htaken) rfl
  | confirm_token htaken htoken =>
      obtain ⟨hasked, hnonce⟩ := token_challenged hrun
        (token_taken_then hrun hcall (hpast.subset htaken))
      exact .confirm_token hcall hasked hnonce (hpast.subset htaken) htoken rfl

/-- What a call makes of an account it makes as accounts allow. -/
theorem account_made (k : Nat) (u : User) (v : Option Record)
    (h : HasMade (mandates jwt_svc wa) cfg k (.user u) v) :
    ∃ v' : Option User, v = v'.map users.inj ∧ AccountChange jwt_svc wa rows evs cfg k u v' := by
  obtain ⟨call, past, hcall, hpast, hmake⟩ := h
  cases hmake with
  | change_password hauth hfound hverify hstrong hhash hu =>
      obtain ⟨salt, rfl⟩ := hashed_then hrun hcall (hpast.subset hhash)
      have hshown := reauthenticated_then hrun hcall hpast hauth hfound hverify
      exact ⟨some _, rfl, rfl, rfl, rfl,
        .inr (.change_password salt hcall hstrong (hu ▸ hshown)), .inl rfl, .inl rfl⟩
  | reset_password hspent hstrong hhash hu =>
      obtain ⟨salt, rfl⟩ := hashed_then hrun hcall (hpast.subset hhash)
      obtain ⟨p₀, hheld, rfl⟩ := spent_then hrun hcall (hspent.mono hpast)
      exact ⟨some _, rfl, rfl, rfl, rfl,
        .inr (.confirm_password_reset salt hcall hstrong hheld hu.symm), .inl rfl, .inl rfl⟩
  | update_user hauth hu =>
      subst hu
      exact ⟨some _, rfl, account_edited ⟨_, _, hcall, hpast.subset hauth⟩⟩
  | confirm_email hconfirms =>
      exact ⟨some _, rfl, rfl, rfl, rfl, .inl rfl, .inl rfl,
        .inr (.inr ⟨rfl, confirms_then hrun hcall hpast hconfirms⟩)⟩
  | delete_user hauth hcascades =>
      obtain rfl := beq_iff_eq.mp hcascades
      exact ⟨none, rfl, deletes_then hcall hpast hauth⟩

theorem account_life {d : Nat} {slot : Slot Record} {x : Version Record} {u : User}
    (hslot : cfg.shared.db[d]? = some slot) (hx : x ∈ slot.versions)
    (hu : x.row = some (.user u)) :
    Life users.inj (Registered jwt_svc rows cfg d) (AccountChange jwt_svc wa rows evs cfg)
      slot.versions := by
  refine ((run_entitled hrun).2.warranted d slot hslot).life (fun a ha => .first ha) ?_
    (account_made hrun) ?_ AccountChange.trans hx hu
  · intro k a hadd
    obtain ⟨call, past, hcall, hpast, hadd⟩ := hadd
    cases hadd with
    | register hvalid hstrong hhash hnow =>
        obtain ⟨salt, rfl⟩ := hashed_then hrun hcall (hpast.subset hhash)
        exact .register salt hcall hvalid hstrong rfl rfl rfl rfl
  · intro k r b hmake
    obtain ⟨call, past, hcall, hpast, hmake⟩ := hmake
    refine ⟨by cases hmake <;> exact ⟨_, rfl⟩, fun a hadd => ?_⟩
    obtain ⟨call', past', hcall', -, hadd⟩ := hadd
    obtain rfl := Option.some.inj (hcall.symm.trans hcall')
    cases hadd
    cases hmake with
    | confirm_email hconfirms => cases hconfirms

end AccountRuns

/-- **Accounts change by right**: every account was there from the start or has been registered, it
keeps its id, email and creation time, and a new hash, name or confirmation comes from a call that
was entitled to it, in any run. -/
theorem accounts_change_by_right (jwt_svc : JwtService) (wa : Webauthn Reg Cred)
    (rows : List Record) (evs : ServiceEvents Reg Cred) (cfg : ServiceState Reg Cred)
    (hrun : (whole_service jwt_svc wa).run ⟨World.of rows, []⟩ evs = some cfg) (d : Nat)
    (slot : Slot Record) (x : Version Record) (u : User) (hslot : cfg.shared.db[d]? = some slot)
    (hx : x ∈ slot.versions) (hu : x.row = some (.user u)) :
    Life users.inj (Registered jwt_svc rows cfg d) (AccountChange jwt_svc wa rows evs cfg)
      slot.versions :=
  account_life hrun hslot hx hu

/-- Alice's account and a session of hers. -/
def alice_with_session : List Record := [.user (sample_user "password"), .session sample_session]

/-- She changes her password, and then her name through the admin viewset. -/
def changed_and_renamed : ServiceEvents Passkey (List UInt8) :=
  .spawn (.route (.change_password (uuid_text 1) ⟨"password", "violet ladder engine cactus"⟩
      alices_browser)) ::
    serving 0 [.identity as_alice, .go, .number 1, .go, .go, .go, .sessions [sample_session], .go,
      .go, .go, .go, .time 60, .time 60, .key 3, .go, .go, .go] ++
    .spawn (.route (.update_user (uuid_text 3) 7 ⟨some "alice2", none⟩)) ::
    serving 1 [.identity as_alice, .go]

theorem account_of_alice_changes : ∃ cfg slot,
    (whole_service sample_jwt sample_webauthn).run ⟨World.of alice_with_session, []⟩
      changed_and_renamed = some cfg ∧
    cfg.shared.db[0]? = some slot ∧ slot.versions.length = 3 ∧
    Life users.inj (Registered sample_jwt alice_with_session cfg 0)
      (AccountChange sample_jwt sample_webauthn alice_with_session changed_and_renamed cfg)
      slot.versions :=
  ⟨_, _, rfl, rfl, rfl, accounts_change_by_right sample_jwt sample_webauthn alice_with_session
    changed_and_renamed _ rfl 0 _ _ _ rfl List.mem_cons_self rfl⟩

/-! ### Refresh tokens -/

section Tokens

variable (jwt_svc : JwtService) (wa : Webauthn Reg Cred) (rows : List Record)
  (evs : ServiceEvents Reg Cred) (cfg : ServiceState Reg Cred)

/-- Where a refresh token comes from: a call let in as its user, or an unrevoked token of the same
user whose raw form the caller had. -/
inductive Issued (d : Nat) : Option Nat → RefreshToken → Prop
  | first {t} (h : rows[d]? = some (.refresh_token t)) : Issued d none t
  | jwt {k cookie id raw t} (hcall : cfg.call k = some (.route (.jwt cookie)))
      (hin : Authenticated (cfg.log k) cookie id) (huser : t.user_id = id.sub)
      (hraw : raw ∈ drawn_tokens (cfg.log k)) (hhash : t.token_hash = hash_token jwt_svc.crates raw)
      (hissuer : t.issuer = "session") (hrevoked : t.revoked = some false) : Issued d (some k) t
  | refresh {k cmd old raw t} (hcall : cfg.call k = some (.route (.refresh cmd)))
      (hold : Saw jwt_svc wa rows evs k refresh_tokens old)
      (hheld : old.token_hash = hash_token jwt_svc.crates (trim cmd.refresh_token))
      (hlive : old.revoked = some false) (huser : t.user_id = old.user_id)
      (hissuer : t.issuer = old.issuer) (hraw : raw ∈ drawn_tokens (cfg.log k))
      (hhash : t.token_hash = hash_token jwt_svc.crates raw) (hrevoked : t.revoked = some false) :
      Issued d (some k) t

/-- Who may revoke a refresh token: its holder, or a rotation of its user's password. -/
inductive RevokesToken (k : Nat) (t : RefreshToken) : Prop
  | jwt_logout {cmd} (hcall : cfg.call k = some (.route (.jwt_logout cmd)))
      (hheld : t.token_hash = hash_token jwt_svc.crates (trim cmd.refresh_token))
  | change_password {cookie req params}
      (hcall : cfg.call k = some (.route (.change_password cookie req params)))
      (hshown : Reauthenticated jwt_svc wa rows evs cfg k cookie req.current_password t.user_id)
  | confirm_password_reset {payload p}
      (hcall : cfg.call k = some (.route (.confirm_password_reset payload)))
      (hheld : HeldReset jwt_svc wa rows evs cfg k payload.token p) (hid : p.user_id = t.user_id)

/-- Who may take a refresh token away: its holder, for another one, or with its user. -/
inductive EndsToken (k : Nat) (t : RefreshToken) : Prop
  | refresh {cmd} (hcall : cfg.call k = some (.route (.refresh cmd)))
      (hheld : t.token_hash = hash_token jwt_svc.crates (trim cmd.refresh_token))
  | delete_user (h : DeletesUser cfg k t.user_id)

/-- A refresh token is revoked or taken away, and nothing else. -/
def TokenChange (k : Nat) (t : RefreshToken) : Option RefreshToken → Prop
  | some t' => t' = { t with revoked := some true } ∧ RevokesToken jwt_svc wa rows evs cfg k t
  | none => EndsToken jwt_svc cfg k t

end Tokens

section TokenRuns

variable {jwt_svc : JwtService} {wa : Webauthn Reg Cred} {rows : List Record}
  {evs : ServiceEvents Reg Cred} {cfg : ServiceState Reg Cred} {k : Nat}

theorem TokenChange.trans (k : Nat) (t t' : RefreshToken) (v : Option RefreshToken)
    (h : TokenChange jwt_svc wa rows evs cfg k t (some t'))
    (h' : TokenChange jwt_svc wa rows evs cfg k t' v) :
    TokenChange jwt_svc wa rows evs cfg k t v := by
  obtain ⟨rfl, hrevokes⟩ := h
  cases v with
  | some t'' =>
      obtain ⟨rfl, -⟩ := h'
      exact ⟨rfl, hrevokes⟩
  | none =>
      cases h' with
      | refresh hcall hheld => exact EndsToken.refresh hcall hheld
      | delete_user h => exact EndsToken.delete_user h

variable (hrun : (whole_service jwt_svc wa).run ⟨World.of rows, []⟩ evs = some cfg)

include hrun

theorem token_made (k : Nat) (t : RefreshToken) (v : Option Record)
    (h : HasMade (mandates jwt_svc wa) cfg k (.refresh_token t) v) :
    ∃ v' : Option RefreshToken, v = v'.map refresh_tokens.inj ∧
      TokenChange jwt_svc wa rows evs cfg k t v' := by
  obtain ⟨call, past, hcall, hpast, hmake⟩ := h
  cases hmake with
  | jwt_logout ht => exact ⟨some _, rfl, rfl, .jwt_logout hcall ht⟩
  | revoke_token hrotates =>
      refine ⟨some _, rfl, rfl, ?_⟩
      generalize hid : t.user_id = id at hrotates
      cases hrotates with
      | change_password hauth hfound hverify hdone =>
          exact .change_password hcall
            (hid ▸ reauthenticated_then hrun hcall hpast hauth hfound hverify)
      | confirm_password_reset hspent hdone =>
          obtain ⟨p₀, hheld, rfl⟩ := spent_then hrun hcall (hspent.mono hpast)
          exact .confirm_password_reset hcall hheld hid.symm
  | exchange hfound hlive ht => exact ⟨none, rfl, EndsToken.refresh hcall ht⟩
  | delete_user hauth hcascades =>
      obtain rfl := beq_iff_eq.mp hcascades
      exact ⟨none, rfl, EndsToken.delete_user (deletes_then hcall hpast hauth)⟩

end TokenRuns

/-- **Refresh tokens are issued to their owner, and stay revoked**: a token comes from a call let in
as its user or from an unrevoked token of the same user, and from then on it is only revoked or
taken away. -/
theorem tokens_stay_with_their_owner (jwt_svc : JwtService) (wa : Webauthn Reg Cred)
    (rows : List Record) (evs : ServiceEvents Reg Cred) (cfg : ServiceState Reg Cred)
    (hrun : (whole_service jwt_svc wa).run ⟨World.of rows, []⟩ evs = some cfg) (d : Nat)
    (slot : Slot Record) (x : Version Record) (t : RefreshToken)
    (hslot : cfg.shared.db[d]? = some slot) (hx : x ∈ slot.versions)
    (ht : x.row = some (.refresh_token t)) :
    Life refresh_tokens.inj (Issued jwt_svc wa rows evs cfg d) (TokenChange jwt_svc wa rows evs cfg)
      slot.versions := by
  refine ((run_entitled hrun).2.warranted d slot hslot).life (fun a ha => .first ha) ?_
    (token_made hrun) ?_ TokenChange.trans hx ht
  · intro k a hadd
    obtain ⟨call, past, hcall, hpast, hadd⟩ := hadd
    cases hadd with
    | jwt hauth hraw hnow hnow' =>
        exact .jwt hcall (hpast.subset hauth) rfl (drawn_tokens_later hraw hpast) rfl rfl rfl
    | refresh hfound hlive hr hraw hnow hnow' =>
        obtain ⟨hold, hheld⟩ := found_then hrun hcall (hfound.later hpast)
        obtain ⟨v, -, hid, rfl⟩ := retrieved_then hrun hcall (hpast.subset hr)
        exact .refresh hcall hold (beq_iff_eq.mp hheld) hlive hid rfl
          (drawn_tokens_later hraw hpast) rfl rfl
  · intro k r b hmake
    obtain ⟨call, past, hcall, hpast, hmake⟩ := hmake
    refine ⟨by cases hmake <;> exact ⟨_, rfl⟩, fun a hadd => ?_⟩
    obtain ⟨call', past', hcall', -, hadd⟩ := hadd
    obtain rfl := Option.some.inj (hcall.symm.trans hcall')
    cases hadd <;> cases hmake <;> rename_i hrotates <;> cases hrotates

/-- Alice takes tokens, refreshes them, and logs out. -/
def taken_and_revoked : ServiceEvents Passkey (List UInt8) :=
  .spawn (.route (.jwt (uuid_text 1))) ::
    serving 0 [.identity as_alice, .text "jwt", .bytes (List.replicate 32 2), .time 90, .time 90,
      .key 9, .go] ++
    .spawn (.route (.refresh ⟨token_of 2⟩)) ::
    serving 1 [.go, .go, .time 91, .go, .go, .go, .text "jwt", .bytes (List.replicate 32 3),
      .time 92, .time 92, .key 9, .go, .go] ++
    .spawn (.route (.jwt_logout ⟨token_of 3⟩)) :: serving 2 [.go, .go, .go]

theorem token_of_alice_stays : ∃ cfg slot t,
    (whole_service sample_jwt sample_webauthn).run ⟨World.of alice_with_session, []⟩
      taken_and_revoked = some cfg ∧
    cfg.shared.db[3]? = some slot ∧ slot.versions.head? = some ⟨some 2, some (.refresh_token t)⟩ ∧
    Life refresh_tokens.inj (Issued sample_jwt sample_webauthn alice_with_session
        taken_and_revoked cfg 3)
      (TokenChange sample_jwt sample_webauthn alice_with_session taken_and_revoked cfg)
      slot.versions :=
  ⟨_, _, _, rfl, rfl, rfl, tokens_stay_with_their_owner sample_jwt sample_webauthn
    alice_with_session taken_and_revoked _ rfl 3 _ _ _ rfl List.mem_cons_self rfl⟩

/-! ### Reset tokens -/

section Resets

variable (jwt_svc : JwtService) (wa : Webauthn Reg Cred) (rows : List Record)
  (evs : ServiceEvents Reg Cred) (cfg : ServiceState Reg Cred)

/-- Where a reset comes from: a request for the email of its user. -/
inductive Requested (d : Nat) : Option Nat → PasswordReset → Prop
  | first {p} (h : rows[d]? = some (.password_reset p)) : Requested d none p
  | request {k req u raw p} (hcall : cfg.call k = some (.route (.request_password_reset req)))
      (hsaw : Saw jwt_svc wa rows evs k users u) (hemail : u.email = req.email)
      (huser : p.user_id = u.id) (hraw : raw ∈ drawn_tokens (cfg.log k))
      (hhash : p.token_hash = hash_token jwt_svc.crates raw) (hused : p.used = some false) :
      Requested d (some k) p

/-- A reset is used, by a call with its token and in time, or goes with its user. -/
def ResetChange (k : Nat) (p : PasswordReset) : Option PasswordReset → Prop
  | some p' => p' = p.spent ∧ ∃ payload now,
      cfg.call k = some (.route (.confirm_password_reset payload)) ∧ Told (cfg.log k) now ∧
        Redeemable (hash_token jwt_svc.crates payload.token) now p = true
  | none => DeletesUser cfg k p.user_id

end Resets

section ResetRuns

variable {jwt_svc : JwtService} {wa : Webauthn Reg Cred} {rows : List Record}
  {evs : ServiceEvents Reg Cred} {cfg : ServiceState Reg Cred}

theorem ResetChange.trans (k : Nat) (p p' : PasswordReset) (v : Option PasswordReset)
    (h : ResetChange jwt_svc cfg k p (some p'))
    (h' : ResetChange jwt_svc cfg k p' v) :
    ResetChange jwt_svc cfg k p v := by
  obtain ⟨rfl, hgood⟩ := h
  cases v with
  | some p'' =>
      obtain ⟨rfl, -⟩ := h'
      exact ⟨rfl, hgood⟩
  | none => exact h'

theorem reset_made (k : Nat) (p : PasswordReset) (v : Option Record)
    (h : HasMade (mandates jwt_svc wa) cfg k (.password_reset p) v) :
    ∃ v' : Option PasswordReset, v = v'.map password_resets.inj ∧
      ResetChange jwt_svc cfg k p v' := by
  obtain ⟨call, past, hcall, hpast, hmake⟩ := h
  cases hmake with
  | spend hnow hp => exact ⟨some _, rfl, rfl, _, _, hcall, hpast.subset hnow, hp⟩
  | delete_user hauth hcascades =>
      obtain rfl := beq_iff_eq.mp hcascades
      exact ⟨none, rfl, deletes_then hcall hpast hauth⟩

end ResetRuns

/-- **Resets are requested for the account's email and used in time**: a reset comes from a request
for the email its user had, and all that becomes of it is that a call with its token uses it. -/
theorem resets_are_used_in_time (jwt_svc : JwtService) (wa : Webauthn Reg Cred)
    (rows : List Record) (evs : ServiceEvents Reg Cred) (cfg : ServiceState Reg Cred)
    (hrun : (whole_service jwt_svc wa).run ⟨World.of rows, []⟩ evs = some cfg) (d : Nat)
    (slot : Slot Record) (x : Version Record) (p : PasswordReset)
    (hslot : cfg.shared.db[d]? = some slot) (hx : x ∈ slot.versions)
    (hp : x.row = some (.password_reset p)) :
    Life password_resets.inj (Requested jwt_svc wa rows evs cfg d)
      (ResetChange jwt_svc cfg) slot.versions := by
  refine ((run_entitled hrun).2.warranted d slot hslot).life (fun a ha => .first ha) ?_
    reset_made ?_ ResetChange.trans hx hp
  · intro k a hadd
    obtain ⟨call, past, hcall, hpast, hadd⟩ := hadd
    cases hadd with
    | reset hfound hraw hnow =>
        obtain ⟨hsaw, hemail⟩ := found_then hrun hcall (hfound.later hpast)
        exact .request hcall hsaw (beq_iff_eq.mp hemail) rfl (drawn_tokens_later hraw hpast) rfl rfl
  · intro k r b hmake
    obtain ⟨call, past, hcall, hpast, hmake⟩ := hmake
    refine ⟨by cases hmake; exact ⟨_, rfl⟩, fun a hadd => ?_⟩
    obtain ⟨call', past', hcall', -, hadd⟩ := hadd
    obtain rfl := Option.some.inj (hcall.symm.trans hcall')
    cases hadd
    cases hmake

/-- Alice has forgotten her password. -/
def requested_and_used : ServiceEvents Passkey (List UInt8) :=
  .spawn (.route (.request_password_reset ⟨"alice@example.com"⟩)) ::
    serving 0 [.go, .bytes (List.replicate 32 2), .time 90, .go, .key 4, .key 5, .go, .go] ++
    .spawn (.route (.confirm_password_reset ⟨token_of 2, "violet ladder engine cactus"⟩)) ::
    serving 1 [.time 91, .go, .go, .go, .number 1, .go, .go, .go, .go, .sessions [], .go, .go]

theorem reset_of_alice_is_used_in_time : ∃ cfg slot p,
    (whole_service sample_jwt sample_webauthn).run ⟨World.of alice_registered, []⟩
      requested_and_used = some cfg ∧
    cfg.shared.db[1]? = some slot ∧ slot.versions.head? = some ⟨some 1, some (.password_reset p)⟩ ∧
    Life password_resets.inj (Requested sample_jwt sample_webauthn alice_registered
        requested_and_used cfg 1)
      (ResetChange sample_jwt cfg)
      slot.versions :=
  ⟨_, _, _, rfl, rfl, rfl, resets_are_used_in_time sample_jwt sample_webauthn alice_registered
    requested_and_used _ rfl 1 _ _ _ rfl List.mem_cons_self rfl⟩

/-! ### Passkeys -/

section Passkeys

variable (jwt_svc : JwtService) (wa : Webauthn Reg Cred) (rows : List Record)
  (evs : ServiceEvents Reg Cred) (cfg : ServiceState Reg Cred)

/-- The call has passed a login ceremony with this credential, and this is what it writes back. -/
def PasskeyUsed (k : Nat) (credential_id data : String) : Prop :=
  ∃ username credential params timed result key key',
    cfg.call k = some (.route (.passkey_login_finish username credential params)) ∧
    LoginStarted jwt_svc wa rows evs cfg (trim username) timed ∧
    ⟨.auth_get (trim username), Except.ok (some timed)⟩ ∈ cfg.log k ∧
    wa.finish_passkey_authentication credential timed.state = .ok result ∧
    key.cred_id = result.cred_id ∧ wa.update_credential key result = some (true, key') ∧
    credential_id = credential_id_b64 key' ∧ wa.to_string key' = some data

/-- A login changes a passkey's data and the time of its last use; its owner may remove it. -/
inductive PasskeyChange (k : Nat) (p : PasskeyCredential) : Option PasskeyCredential → Prop
  | used {p'} (hid : p'.id = p.id) (huser : p'.user_id = p.user_id)
      (hcred : p'.credential_id = p.credential_id) (hlabel : p'.label = p.label)
      (hcreated : p'.created_at = p.created_at)
      (hused : PasskeyUsed jwt_svc wa rows evs cfg k p.credential_id p'.passkey_data) :
      PasskeyChange k p (some p')
  | removed {cookie id} (hcall : cfg.call k = some (.route (.passkey_remove cookie p.id)))
      (hin : Authenticated (cfg.log k) cookie id) (huser : p.user_id = id.sub) :
      PasskeyChange k p none
  | deleted (h : DeletesUser cfg k p.user_id) : PasskeyChange k p none

end Passkeys

section PasskeyRuns

variable {jwt_svc : JwtService} {wa : Webauthn Reg Cred} {rows : List Record}
  {evs : ServiceEvents Reg Cred} {cfg : ServiceState Reg Cred}

theorem PasskeyChange.trans (k : Nat) (p p' : PasskeyCredential) (v : Option PasskeyCredential)
    (h : PasskeyChange jwt_svc wa rows evs cfg k p (some p'))
    (h' : PasskeyChange jwt_svc wa rows evs cfg k p' v) :
    PasskeyChange jwt_svc wa rows evs cfg k p v := by
  cases h with
  | used hid huser hcred hlabel hcreated hused =>
      cases h' with
      | used hid' huser' hcred' hlabel' hcreated' hused' =>
          exact .used (hid'.trans hid) (huser'.trans huser) (hcred'.trans hcred)
            (hlabel'.trans hlabel) (hcreated'.trans hcreated) (hcred ▸ hused')
      | removed hcall hin hown => exact .removed (hid ▸ hcall) hin (huser ▸ hown)
      | deleted h => exact .deleted (huser ▸ h)

variable (hrun : (whole_service jwt_svc wa).run ⟨World.of rows, []⟩ evs = some cfg)

include hrun

end PasskeyRuns

end Authnz
