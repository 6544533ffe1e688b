/-
How sessions come and go, whatever else is in progress.

A session is `Earned`: the call that committed it had shown the account's password, a
challenge that some call had drawn on the account's behalf, an assertion for a
ceremony started for the account, or had been let in as the account and shown its
password.  From then on only the session viewset changes it, and when it goes,
`EndsSession` says which call may have deleted it.  The two viewsets ask no more of a
caller than to be let in, so somebody else's session is theirs to change and end.
-/
import Authnz.Basis.Lives
import Authnz.Proofs.Provenance

namespace Authnz

open Basis

variable {Reg Cred : Type}

section Earnings

variable (jwt_svc : JwtService) (wa : Webauthn Reg Cred) (rows : List Record)
  (evs : ServiceEvents Reg Cred) (cfg : ServiceState Reg Cred)

/-- The session is for this account, from this address. -/
structure Session.IsFor (s : Session) (r : UserResponse) (params : SessionParams) : Prop where
  sub : s.sub = r.id
  username : s.username = r.username
  email : s.email = r.email
  ip_address : s.ip_address = params.ip_address

/-- Some call has drawn this challenge and put it into the cache, asked for by the email or the
username of the account. -/
def Challenged (e : FA2Entry) : Prop :=
  ∃ j u, Saw jwt_svc wa rows evs j users u ∧ e.email = u.id ∧
    (cfg.call j = some (.route (.challenge1 u.email)) ∨
      cfg.call j = some (.route (.challenge2 u.username))) ∧
    Drew (cfg.log j) e ∧ ⟨.tokens_insert e.nonce e, ()⟩ ∈ cfg.log j

/-- Some call has started this login ceremony for the account of the name, with its passkeys and a
challenge of its own drawing, and has stored it. -/
def LoginStarted (username : String) (timed : TimedAuthState) : Prop :=
  ∃ j name u l credentials challenge, cfg.call j = some (.route (.passkey_login_start name)) ∧
    trim name = username ∧ Saw jwt_svc wa rows evs j users u ∧ u.username = username ∧
    SawAll jwt_svc wa rows evs j passkey_credentials (fun k => k.user_id == u.id) l ∧
    (l.mapM fun k => wa.from_str k.passkey_data) = some credentials ∧
    ⟨.challenge, Except.ok challenge⟩ ∈ cfg.log j ∧
    timed.state = wa.start_passkey_authentication credentials challenge ∧
    ⟨.auth_set username timed, Except.ok ()⟩ ∈ cfg.log j

/-- What a call has to show for a session. -/
inductive Earned (k : Nat) : ServiceCall Reg Cred → Session → Prop
  | login {req params u s} (hknew : KnewPassword jwt_svc wa rows evs k req.password u)
      (hemail : u.email = req.identifier) (hs : s.IsFor (UserResponse.of u) params) :
      Earned k (.route (.login req params)) s
  | username_login {req params u s} (hknew : KnewPassword jwt_svc wa rows evs k req.password u)
      (hname : u.username = req.identifier) (hs : s.IsFor (UserResponse.of u) params) :
      Earned k (.route (.username_login req params)) s
  /-- The account is read through the repository, which may serve an older copy. -/
  | confirm {link params e v s} (hasked : Challenged jwt_svc wa rows evs cfg e)
      (hlink : e.link = link) (htaken : ⟨.links_remove link, some e⟩ ∈ cfg.log k)
      (hv : cfg.shared.db.Had (.user v)) (hid : v.id = e.email)
      (hs : s.IsFor (UserResponse.of v) params) : Earned k (.route (.confirm link params)) s
  | confirm_token {token nonce params e v s} (hasked : Challenged jwt_svc wa rows evs cfg e)
      (hnonce : e.nonce = nonce) (htaken : ⟨.tokens_remove nonce, some e⟩ ∈ cfg.log k)
      (htoken : e.token = token) (hv : cfg.shared.db.Had (.user v)) (hid : v.id = e.email)
      (hs : s.IsFor (UserResponse.of v) params) :
      Earned k (.route (.confirm_token token nonce params)) s
  | passkey_login {username credential params u timed result s}
      (hsaw : Saw jwt_svc wa rows evs k users u) (hname : u.username = trim username)
      (hstarted : LoginStarted jwt_svc wa rows evs cfg (trim username) timed)
      (hgot : ⟨.auth_get (trim username), Except.ok (some timed)⟩ ∈ cfg.log k)
      (hfinish : wa.finish_passkey_authentication credential timed.state = .ok result)
      (hs : s.IsFor (UserResponse.of u) params) :
      Earned k (.route (.passkey_login_finish username credential params)) s
  | change_password {cookie req params id u v s} (hin : Authenticated (cfg.log k) cookie id)
      (hknew : KnewPassword jwt_svc wa rows evs k req.current_password u) (hu : u.id = id.sub)
      (hv : cfg.shared.db.Had (.user v)) (hid : v.id = id.sub)
      (hs : s.IsFor (UserResponse.of v) params) :
      Earned k (.route (.change_password cookie req params)) s

/-- Where a session comes from: it was in slot `d` from the start, or has been earned. -/
inductive Begun (d : Nat) : Option Nat → Session → Prop
  | first {s} (h : rows[d]? = some (.session s)) : Begun d none s
  | earned {k call s} (hcall : cfg.call k = some call)
      (h : Earned jwt_svc wa rows evs cfg k call s) : Begun d (some k) s

/-- Who may end a session. -/
inductive EndsSession (k : Nat) (s : Session) : ServiceCall Reg Cred → Prop
  /-- The one the cookie names. -/
  | logout {cookie id} (hin : Authenticated (cfg.log k) cookie id)
      (hs : jwt_svc.crates.uuid_parse cookie = some s.id) : EndsSession k s (.route (.logout cookie))
  /-- One the session repository has shown as the user's own. -/
  | delete_session {cookie id z} (hin : Authenticated (cfg.log k) cookie id)
      (hshown : Shown (cfg.log k) s.id z) (hsub : z.sub = id.sub) :
      EndsSession k s (.route (.delete_session cookie s.id))
  /-- One the session repository has listed as the user's. -/
  | change_password {cookie req params id u l z} (hin : Authenticated (cfg.log k) cookie id)
      (hknew : KnewPassword jwt_svc wa rows evs k req.current_password u) (hu : u.id = id.sub)
      (hnamed : Named (cfg.log k) id.sub l) (hz : z ∈ l) (hs : s.id = z.id) :
      EndsSession k s (.route (.change_password cookie req params))
  | confirm_password_reset {payload p l z}
      (hheld : HeldReset jwt_svc wa rows evs cfg k payload.token p)
      (hnamed : Named (cfg.log k) p.user_id l) (hz : z ∈ l) (hs : s.id = z.id) :
      EndsSession k s (.route (.confirm_password_reset payload))
  /-- Any, through the session viewset. -/
  | viewset_delete {cookie id} (hin : Authenticated (cfg.log k) cookie id) :
      EndsSession k s (.delete_session cookie s.id)
  | delete_user {cookie id} (hin : Authenticated (cfg.log k) cookie id) :
      EndsSession k s (.delete_user cookie s.sub)

/-- The call is changing the session with this id through the session viewset. -/
def EditsSession (k : Nat) (id : Uuid) : Prop :=
  ∃ cookie change who, cfg.call k = some (.update_session cookie id change) ∧
    Authenticated (cfg.log k) cookie who

/-- What may become of a session: another with its id, or nothing. -/
def SessionFate (k : Nat) (s : Session) : Option Session → Prop
  | some s' => s'.id = s.id ∧ EditsSession cfg k s.id
  | none => ∃ call, cfg.call k = some call ∧ EndsSession jwt_svc wa rows evs cfg k s call

end Earnings

section Runs

variable {jwt_svc : JwtService} {wa : Webauthn Reg Cred} {rows : List Record}
  {evs : ServiceEvents Reg Cred} {cfg : ServiceState Reg Cred} {k : Nat}
  {call : ServiceCall Reg Cred}
  (hrun : (whole_service jwt_svc wa).run ⟨World.of rows, []⟩ evs = some cfg)

include hrun

/-- What a call has asked for on the way, it has asked for. -/
theorem challenges_then {j : Nat} {past : Replies} {u : User} (hcall : cfg.call j = some call)
    (hpast : past <:+ cfg.log j) (h : Challenges call past u) :
    Saw jwt_svc wa rows evs j users u ∧
      (cfg.call j = some (.route (.challenge1 u.email)) ∨
        cfg.call j = some (.route (.challenge2 u.username))) := by
  cases h with
  | challenge1 hfound =>
      obtain ⟨hsaw, hemail⟩ := found_then hrun hcall (hfound.later hpast)
      obtain rfl := beq_iff_eq.mp hemail
      exact ⟨hsaw, .inl hcall⟩
  | challenge2 hfound =>
      obtain ⟨hsaw, hname⟩ := found_then hrun hcall (hfound.later hpast)
      obtain rfl := beq_iff_eq.mp hname
      exact ⟨hsaw, .inr hcall⟩

theorem link_challenged {link : String} {e : FA2Entry}
    (h : HasPut (mandates jwt_svc wa) cfg ⟨.links_insert link e, ()⟩) :
    Challenged jwt_svc wa rows evs cfg e ∧ e.link = link := by
  obtain ⟨j, call, past, hcall, hsuf, hput⟩ := h
  have hpast := (List.suffix_cons _ past).trans hsuf
  cases hput with
  | links_insert hchallenges hdrew htoken hemail =>
      obtain ⟨hsaw, hasked⟩ := challenges_then hrun hcall hpast hchallenges
      exact ⟨⟨j, _, hsaw, hemail, hasked, hdrew.later hpast, hpast.subset htoken⟩, rfl⟩
  | other ho => exact ho.elim

theorem token_challenged {nonce : String} {e : FA2Entry}
    (h : HasPut (mandates jwt_svc wa) cfg ⟨.tokens_insert nonce e, ()⟩) :
    Challenged jwt_svc wa rows evs cfg e ∧ e.nonce = nonce := by
  obtain ⟨j, call, past, hcall, hsuf, hput⟩ := h
  have hpast := (List.suffix_cons _ past).trans hsuf
  cases hput with
  | tokens_insert hchallenges hdrew hemail =>
      obtain ⟨hsaw, hasked⟩ := challenges_then hrun hcall hpast hchallenges
      exact ⟨⟨j, _, hsaw, hemail, hasked, hdrew.later hpast, hsuf.subset List.mem_cons_self⟩, rfl⟩
  | other ho => exact ho.elim

theorem login_started {username : String} {timed : TimedAuthState}
    (h : HasPut (mandates jwt_svc wa) cfg ⟨.auth_set username timed, Except.ok ()⟩) :
    LoginStarted jwt_svc wa rows evs cfg username timed := by
  obtain ⟨j, call, past, hcall, hsuf, hput⟩ := h
  have hpast := (List.suffix_cons _ past).trans hsuf
  cases hput with
  | @auth_set name _ u l challenge timed credentials hfound hlisted hread hdrew hstate =>
      obtain ⟨hsaw, hname⟩ := found_then hrun hcall (hfound.later hpast)
      exact ⟨j, name, u, l, credentials, challenge, hcall, rfl, hsaw, beq_iff_eq.mp hname,
        listed_then hrun hcall (hlisted.later hpast), hread, hpast.subset hdrew, hstate,
        hsuf.subset List.mem_cons_self⟩
  | other ho => exact ho.elim

/-- What a call has had proof of is earned. -/
theorem vouched_earned {past : Replies} {r : UserResponse} {params : SessionParams} {s : Session}
    (hcall : cfg.call k = some call) (hpast : past <:+ cfg.log k)
    (h : Vouched jwt_svc wa call past r params) (hs : s.IsFor r params) :
    Earned jwt_svc wa rows evs cfg k call s := by
  cases h with
  | login hfound hverify =>
      obtain ⟨hsaw, hemail⟩ := found_then hrun hcall (hfound.later hpast)
      exact .login ⟨hsaw, hverify⟩ (beq_iff_eq.mp hemail) hs
  | username_login hfound hverify =>
      obtain ⟨hsaw, hname⟩ := found_then hrun hcall (hfound.later hpast)
      exact .username_login ⟨hsaw, hverify⟩ (beq_iff_eq.mp hname) hs
  | confirm htaken hr =>
      obtain ⟨hasked, hlink⟩ := link_challenged hrun
        (link_taken_then hrun hcall (hpast.subset htaken))
      obtain ⟨v, hv, hid, rfl⟩ := retrieved_then hrun hcall (hpast.subset hr)
      exact .confirm hasked hlink (hpast.subset htaken) hv hid hs
  | confirm_token htaken htoken hr =>
      obtain ⟨hasked, hnonce⟩ := token_challenged hrun
        (token_taken_then hrun hcall (hpast.subset htaken))
      obtain ⟨v, hv, hid, rfl⟩ := retrieved_then hrun hcall (hpast.subset hr)
      exact .confirm_token hasked hnonce (hpast.subset htaken) htoken hv hid hs
  | passkey_login hfound hgot hfinish =>
      obtain ⟨hsaw, hname⟩ := found_then hrun hcall (hfound.later hpast)
      exact .passkey_login hsaw (beq_iff_eq.mp hname)
        (login_started hrun (auth_state_then hrun hcall (hpast.subset hgot))) (hpast.subset hgot)
        hfinish hs
  | change_password hauth hfound hverify hdone hr =>
      obtain ⟨hsaw, hid⟩ := found_then hrun hcall (hfound.later hpast)
      obtain ⟨v, hv, hvid, rfl⟩ := retrieved_then hrun hcall (hpast.subset hr)
      exact .change_password (hpast.subset hauth) ⟨hsaw, hverify⟩ (beq_iff_eq.mp hid) hv hvid hs

end Runs

/-! ### The life of a session -/

section Lives

variable {jwt_svc : JwtService} {wa : Webauthn Reg Cred} {rows : List Record}
  {evs : ServiceEvents Reg Cred} {cfg : ServiceState Reg Cred} {k : Nat}

theorem SessionFate.trans (k : Nat) (s s' : Session) (v : Option Session)
    (h : SessionFate jwt_svc wa rows evs cfg k s (some s'))
    (h' : SessionFate jwt_svc wa rows evs cfg k s' v) : SessionFate jwt_svc wa rows evs cfg k s v := by
  obtain ⟨hid, hedits⟩ := h
  cases v with
  | some s'' => exact ⟨h'.1.trans hid, hedits⟩
  | none =>
      obtain ⟨call, hcall, hends⟩ := h'
      obtain ⟨cookie, change, who, hcall', -⟩ := hedits
      obtain rfl := Option.some.inj (hcall.symm.trans hcall')
      cases hends

variable (hrun : (whole_service jwt_svc wa).run ⟨World.of rows, []⟩ evs = some cfg)

include hrun

/-- What a call makes of a session it makes as sessions allow. -/
theorem session_made (k : Nat) (s : Session) (v : Option Record)
    (h : HasMade (mandates jwt_svc wa) cfg k (.session s) v) :
    ∃ v' : Option Session, v = v'.map sessions.inj ∧ SessionFate jwt_svc wa rows evs cfg k s v' := by
  obtain ⟨call, past, hcall, hpast, hmake⟩ := h
  cases hmake with
  | logout hauth hs => exact ⟨none, rfl, _, hcall, .logout (hpast.subset hauth) hs⟩
  | delete_session hauth hshown hsub hs =>
      subst hs
      exact ⟨none, rfl, _, hcall, .delete_session (hpast.subset hauth) (hpast.subset hshown) hsub⟩
  | revoke_session hrotates hnamed hz hs =>
      refine ⟨none, rfl, call, hcall, ?_⟩
      cases hrotates with
      | change_password hauth hfound hverify hdone =>
          obtain ⟨hu, hsub⟩ := found_then hrun hcall (hfound.later hpast)
          exact .change_password (hpast.subset hauth) ⟨hu, hverify⟩ (beq_iff_eq.mp hsub)
            (hpast.subset hnamed) hz hs
      | confirm_password_reset hspent hdone =>
          obtain ⟨p₀, hheld, rfl⟩ := spent_then hrun hcall (hspent.mono hpast)
          exact .confirm_password_reset hheld (hpast.subset hnamed) hz hs
  | @viewset_update_session cookie id change _ who _ hauth hs =>
      subst hs
      exact ⟨some (change.1 s), rfl, change.2 s, cookie, change, who, hcall, hpast.subset hauth⟩
  | viewset_delete_session hauth hs =>
      subst hs
      exact ⟨none, rfl, _, hcall, .viewset_delete (hpast.subset hauth)⟩
  | delete_user hauth hcascades =>
      obtain rfl := beq_iff_eq.mp hcascades
      exact ⟨none, rfl, _, hcall, .delete_user (hpast.subset hauth)⟩

theorem session_life {d : Nat} {slot : Slot Record} {x : Version Record} {s : Session}
    (hslot : cfg.shared.db[d]? = some slot) (hx : x ∈ slot.versions)
    (hs : x.row = some (.session s)) :
    Life sessions.inj (Begun jwt_svc wa rows evs cfg d) (SessionFate jwt_svc wa rows evs cfg)
      slot.versions := by
  refine ((run_entitled hrun).2.warranted d slot hslot).life (fun a ha => .first ha) ?_
    (session_made hrun) ?_ SessionFate.trans hx hs
  · intro k a hadd
    obtain ⟨call, past, hcall, hpast, hadd⟩ := hadd
    cases hadd with
    | session hvouched hnow =>
        exact .earned hcall (vouched_earned hrun hcall hpast hvouched ⟨rfl, rfl, rfl, rfl⟩)
  · intro k r b hmake
    obtain ⟨call, past, hcall, hpast, hmake⟩ := hmake
    refine ⟨by cases hmake; exact ⟨_, rfl⟩, fun a hadd => ?_⟩
    obtain ⟨call', past', hcall', -, hadd⟩ := hadd
    obtain rfl := Option.some.inj (hcall.symm.trans hcall')
    cases hmake
    cases hadd with
    | session hvouched hnow => cases hvouched

end Lives

/-- Alice's account, and nothing else. -/
def alice_registered : List Record := [.user (sample_user "password")]

/-- The steps of one call of the service, in a row. -/
def serving (i : Nat) (choices : List Choice) : ServiceEvents Passkey (List UInt8) :=
  choices.map (.step i)

/-- Alice logs in, and out again. -/
def in_and_out : ServiceEvents Passkey (List UInt8) :=
  .spawn (.route (.login ⟨"alice@example.com", "password"⟩ alices_browser)) ::
    serving 0 [.go, .time 90, .time 90, .key 2, .go] ++
    .spawn (.route (.logout (uuid_text 2))) ::
    serving 1 [.identity as_alice, .go, .go, .go]

/-- **Sessions change and end by right**: what becomes of a version is that the session viewset
makes another of it, with its id, or that a call which may end it deletes it, for good. -/
theorem sessions_end_by_right (jwt_svc : JwtService) (wa : Webauthn Reg Cred) (rows : List Record)
    (evs : ServiceEvents Reg Cred) (cfg : ServiceState Reg Cred)
    (hrun : (whole_service jwt_svc wa).run ⟨World.of rows, []⟩ evs = some cfg) (d : Nat)
    (slot : Slot Record) (x : Version Record) (s : Session) (hslot : cfg.shared.db[d]? = some slot)
    (hx : x ∈ slot.versions) (hs : x.row = some (.session s)) : slot.versions.head? = some x ∨
      ∃ k v, [⟨some k, v.map sessions.inj⟩, x] <:+: slot.versions ∧
        SessionFate jwt_svc wa rows evs cfg k s v ∧
        (v = none → slot.versions.head? = some ⟨some k, none⟩) :=
  (session_life hrun hslot hx hs).fate (fun _ _ => Record.session.inj) hx hs

theorem session_of_alice_ends : ∃ cfg slot x s,
    (whole_service sample_jwt sample_webauthn).run ⟨World.of alice_registered, []⟩ in_and_out =
      some cfg ∧ cfg.shared.db[1]? = some slot ∧ x ∈ slot.versions ∧ x.row = some (.session s) ∧
    (slot.versions.head? = some x ∨
      ∃ k v, [⟨some k, v.map sessions.inj⟩, x] <:+: slot.versions ∧
        SessionFate sample_jwt sample_webauthn alice_registered in_and_out cfg k s v ∧
        (v = none → slot.versions.head? = some ⟨some k, none⟩)) :=
  ⟨_, _, _, _, rfl, rfl, List.mem_cons_of_mem _ List.mem_cons_self, rfl,
    sessions_end_by_right sample_jwt sample_webauthn alice_registered in_and_out _ rfl 1 _ _ _ rfl
      (List.mem_cons_of_mem _ List.mem_cons_self) rfl⟩

end Authnz
