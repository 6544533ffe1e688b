/-
Challenges among themselves, and guesses at their one-time passwords.

Any number of challenges, confirmations and expiries take place at once here, one
cache operation at a time.  Every entry of the caches lies under its own name and came
there from one call of `release_pair`, and only a call that presents a challenge
touches its entries: `challenges_apart`.  A nonce entry is removed before its number is
looked at, and never comes back, so one call at most gets to compare:
`one_guess_each`.
-/
import Authnz.Basis.Once
import Authnz.Model.Passwdless
import Authnz.Model.Sample
import Authnz.Proofs.Routes
import Authnz.Proofs.Walking

namespace Authnz

open Basis

/-- The calls of the passwordless service. -/
inductive PasswdlessCall where
  | challenge_by_email (email : String)
  | challenge_by_username (username : String)
  | confirm_link (token : String)
  | confirm_token (token : Nat) (nonce : String)
  deriving DecidableEq

inductive PasswdlessResult where
  | challenged (r : Except PasswdlessError Unit)
  | confirmed (r : Except PasswdlessError Uuid)

def PasswdlessCall.code : PasswdlessCall → Handler PasswdlessResult
  | .challenge_by_email email => do
      return .challenged (← (PasswdlessService.challenge_by_email email).run)
  | .challenge_by_username username => do
      return .challenged (← (PasswdlessService.challenge_by_username username).run)
  | .confirm_link token => do return .confirmed (← (PasswdlessService.confirm_link token).run)
  | .confirm_token token nonce => do
      return .confirmed (← (PasswdlessService.confirm_token token nonce).run)

/-- Any number of these calls at once; the caches may drop entries at any time. -/
abbrev passwdless (c : Crates) :
    System Op Op.Reply Choice World PasswdlessCall Expiry PasswdlessResult :=
  service c PasswdlessCall.code

abbrev PasswdlessConfig : Type := Config Op Op.Reply World PasswdlessCall PasswdlessResult

abbrev PasswdlessEvent : Type := Basis.Event Choice PasswdlessCall Expiry

/-- Links and nonces are drawn new: no call has drawn the text before. -/
def draws_new (cfg : PasswdlessConfig) (ev : PasswdlessEvent) : Bool :=
  match ev with
  | .step i (.bytes bytes) =>
      match cfg.next i with
      | some (.fill _) => cfg.threads.all fun th => !(drawn_tokens th.log).contains (base64url bytes)
      | _ => true
  | _ => true

/-! ### Which call released a challenge -/

/-- The call asks for a challenge of this account. -/
def PasswdlessCall.names (u : User) : PasswdlessCall → Prop
  | .challenge_by_email email => u.email = email
  | .challenge_by_username username => u.username = username
  | _ => False

section Releases

variable (call : PasswdlessCall) (log : List ((o : Op) × o.Reply)) (u : User)

/-- The call has looked `u` up. -/
def Finds : Prop :=
  call.names u ∧ ∃ (p : Record → Bool) (rows : List Record),
    log = [⟨.sql (.select p), (Except.ok rows : Except DbError (List Record))⟩] ∧
      (rows.filterMap users.prj).head? = some u

/-- Then it has drawn this link, -/
def LinkDrawn (link : String) : Prop :=
  ∃ (bytes : List UInt8) (before : List ((o : Op) × o.Reply)),
    log = ⟨.fill 32, bytes⟩ :: before ∧ base64url bytes = link ∧ Finds call before u

/-- and this nonce, -/
def NonceDrawn (link nonce : String) : Prop :=
  ∃ (bytes : List UInt8) (before : List ((o : Op) × o.Reply)),
    log = ⟨.fill 32, bytes⟩ :: before ∧ base64url bytes = nonce ∧ LinkDrawn call before u link

/-- and the password that goes with them, -/
def Prepared (e : FA2Entry) : Prop :=
  e.email = u.id ∧ ∃ before, log = ⟨.random_range 100000 999999, e.token⟩ :: before ∧
    NonceDrawn call before u e.link e.nonce

/-- and has put the challenge into the cache of nonces; what it did `after` that is left open. -/
def Released (e : FA2Entry) : Prop :=
  ∃ after before, log = after ++ ⟨.tokens_insert e.nonce e, ()⟩ :: before ∧
    Prepared call before u e

end Releases

/-- Call `r` has released the challenge `e` for `u`. -/
def ReleasedBy (cfg : PasswdlessConfig) (r : Nat) (u : User) (e : FA2Entry) : Prop :=
  ∃ call, cfg.call r = some call ∧ Released call (cfg.log r) u e

/-- The call presents the challenge, in either form. -/
def PasswdlessCall.shows (e : FA2Entry) (call : PasswdlessCall) : Prop :=
  call = .confirm_link e.link ∨ ∃ t, call = .confirm_token t e.nonce

/-- Call `i` has returned `Ok(u)`. -/
def LetsIn (cfg : PasswdlessConfig) (i : Nat) (u : Uuid) : Prop :=
  cfg.result i = some (.confirmed (.ok u))

/-- Call `i` has taken the challenge out of the cache of nonces to compare its number with it. -/
def Compares (cfg : PasswdlessConfig) (e : FA2Entry) (i t : Nat) : Prop :=
  cfg.call i = some (.confirm_token t e.nonce) ∧ ⟨.tokens_remove e.nonce, some e⟩ ∈ cfg.log i

/-! ### The calls, in phases -/

inductive PasswdlessPhase where
  | seeking
  | found (u : User)
  | linked (u : User) (link : String)
  | named (u : User) (link nonce : String)
  | ready (u : User) (e : FA2Entry)
  | half (u : User) (e : FA2Entry)
  | released (u : User) (e : FA2Entry)
  | took (e : FA2Entry)
  | lost

inductive PasswdlessStep :
    PasswdlessCall → PasswdlessPhase → (o : Op) → o.Reply → PasswdlessPhase → Prop
  | nobody {call : PasswdlessCall} {p : Record → Bool} {r : Except DbError (List Record)} :
      PasswdlessStep call .seeking (.sql (.select p)) r .lost
  | found {call : PasswdlessCall} {p : Record → Bool} {rows : List Record} {u : User}
      (hp : ∀ v, p (users.inj v) = true → call.names v)
      (hu : (rows.filterMap users.prj).head? = some u) :
      PasswdlessStep call .seeking (.sql (.select p))
        (Except.ok rows : Except DbError (List Record)) (.found u)
  | draw_link {call : PasswdlessCall} {u : User} {bytes : List UInt8} :
      PasswdlessStep call (.found u) (.fill 32) bytes (.linked u (base64url bytes))
  | draw_nonce {call : PasswdlessCall} {u : User} {link : String} {bytes : List UInt8} :
      PasswdlessStep call (.linked u link) (.fill 32) bytes (.named u link (base64url bytes))
  | draw_otp {call : PasswdlessCall} {u : User} {link nonce : String} {token : Nat} :
      PasswdlessStep call (.named u link nonce) (.random_range 100000 999999) token
        (.ready u { link, token, email := u.id, nonce })
  | put_nonce {call : PasswdlessCall} {u : User} {e : FA2Entry} :
      PasswdlessStep call (.ready u e) (.tokens_insert e.nonce e) () (.half u e)
  | put_link {call : PasswdlessCall} {u : User} {e : FA2Entry} :
      PasswdlessStep call (.half u e) (.links_insert e.link e) () (.released u e)
  | publish {call : PasswdlessCall} {u : User} {e : FA2Entry} {o : SqlOp Record} {r : o.Reply} :
      PasswdlessStep call (.released u e) (.sql o) r (.released u e)
  | link_gone {token : String} :
      PasswdlessStep (.confirm_link token) .seeking (.links_remove token) none .lost
  | link_taken {token : String} {e : FA2Entry} :
      PasswdlessStep (.confirm_link token) .seeking (.links_remove token) (some e) (.took e)
  | link_done {token : String} {e : FA2Entry} {r : Option FA2Entry} :
      PasswdlessStep (.confirm_link token) (.took e) (.tokens_remove e.nonce) r (.took e)
  | nonce_gone {token : Nat} {nonce : String} :
      PasswdlessStep (.confirm_token token nonce) .seeking (.tokens_remove nonce) none .lost
  | nonce_wrong {token : Nat} {nonce : String} {e : FA2Entry} (h : e.token ≠ token) :
      PasswdlessStep (.confirm_token token nonce) .seeking (.tokens_remove nonce) (some e) .lost
  | nonce_taken {token : Nat} {nonce : String} {e : FA2Entry} (h : e.token = token) :
      PasswdlessStep (.confirm_token token nonce) .seeking (.tokens_remove nonce) (some e) (.took e)
  | nonce_done {token : Nat} {nonce : String} {e : FA2Entry} {r : Option FA2Entry} :
      PasswdlessStep (.confirm_token token nonce) (.took e) (.links_remove e.link) r (.took e)

/-- The passwordless service, as a protocol. -/
abbrev passing : Protocol Op Op.Reply PasswdlessCall PasswdlessResult where
  Phase := PasswdlessPhase
  start _ := .seeking
  Step := PasswdlessStep
  Final _ ph
    | .confirmed (.ok u) => ∃ e, ph = .took e ∧ e.email = u
    | _ => True

abbrev PasswdlessGhost : Type := passing.Ghost

/-- What only works on the tables leaves a released challenge where it is. -/
theorem goes_publishing {α : Type} {p : Handler α} (hp : p.Uses fun o => ∃ q, o = .sql q)
    (call : PasswdlessCall) (u : User) (e : FA2Entry) :
    Goes passing call p (.released u e) fun ph' _ => ph' = .released u e := by
  have hparts : ∀ {β : Type} (q : Prog (SqlOp Record) SqlOp.Reply β),
      passing.Walks call (q.interp sql_part) (.released u e) fun ph' _ => ph' = .released u e := by
    intro β q
    induction q with
    | ret b => rfl
    | ask o k ih => exact fun r => ⟨_, .publish, ih r⟩
  induction p with
  | ret a => rfl
  | ask o k ih =>
      obtain ⟨⟨q, rfl⟩, hk⟩ := hp
      refine Protocol.walks_bind (Protocol.walks_mono (hparts q.split) ?_)
      intro ph' r hph
      subst hph
      exact ih r (hk r)

theorem publish_challenge_uses (payload : ChallengeRequested) :
    (PasswdlessService.publish_challenge payload).run.Uses fun o => ∃ q, o = .sql q :=
  Prog.uses_bindE (uses_attempt (uses_ask ⟨_, rfl⟩)) fun _ => uses_in_tx
    (Prog.uses_bindE (uses_attempt (uses_insert ⟨_, rfl⟩)) fun _ =>
      uses_attempt (uses_ask ⟨_, rfl⟩)) ⟨_, rfl⟩

/-- Both forms of asking for a challenge: look the account up, release, publish. -/
theorem goes_challenging {call : PasswdlessCall} {q : User → Bool}
    (hq : ∀ v, q v = true → call.names v) :
    GoesE passing call (challenge_of (lookup q)) .seeking (fun _ _ => True)
      fun _ _ => True := by
  have hlookup : GoesE passing call (lookup q) .seeking (fun ph' u => ph' = .found u)
      fun ph' _ => ph' = .lost := by
    refine goesE_bind (goesE_attempt (goes_bind (goes_ask ?_)))
    intro r
    cases r with
    | error e => exact ⟨.lost, .nobody, rfl⟩
    | ok rows =>
        cases hrows : rows.filterMap users.prj with
        | nil =>
            refine ⟨.lost, .nobody, ?_⟩
            simp only [Prog.interp, Prog.bind, Protocol.Walks]
            refine goes_ret ?_
            simp only [Relation.decode, hrows]
            exact goesE_throw rfl
        | cons u us =>
            refine ⟨.found u, .found (p := users.sel q) (fun v hv => hq v ?_) ?_, ?_⟩
            · simpa [Relation.sel, users.prj_inj] using hv
            · rw [hrows]
              rfl
            · simp only [Prog.interp, Prog.bind, Protocol.Walks]
              refine goes_ret ?_
              simp only [Relation.decode, hrows]
              exact goesE_ret rfl
  have hrelease : ∀ u, Goes passing call (PasswdlessService.release_pair u.id) (.found u)
      fun ph' _ => ∃ e, ph' = .released u e := by
    intro u link
    refine ⟨_, .draw_link, ?_⟩
    intro nonce
    refine ⟨_, .draw_nonce, ?_⟩
    intro token
    refine ⟨_, .draw_otp, ?_⟩
    intro _
    refine ⟨_, .put_nonce, ?_⟩
    intro _
    exact ⟨_, .put_link, _, rfl⟩
  refine goesE_bind (goesE_lift (goes_mono hlookup ?_))
  intro ph r hr
  cases r with
  | error e => exact goesE_throw trivial
  | ok u =>
      subst hr
      refine goesE_bind (goesE_lift (goes_mono (hrelease u) ?_))
      intro ph payload hph
      obtain ⟨e, rfl⟩ := hph
      exact goes_mono (goes_publishing (publish_challenge_uses payload) call u e)
        fun _ r _ => by cases r <;> trivial

theorem passing_follows (c : Crates) (call : PasswdlessCall) :
    passing.Follows call ((passwdless c).code call) := by
  cases call with
  | challenge_by_email email =>
      exact goes_run (goesE_mono (goes_challenging (q := fun u => u.email == email)
        fun _ hv => beq_iff_eq.mp hv) (fun _ _ _ => goes_ret trivial) fun _ _ _ => goes_ret trivial)
  | challenge_by_username username =>
      exact goes_run (goesE_mono (goes_challenging (q := fun u => u.username == username)
        fun _ hv => beq_iff_eq.mp hv) (fun _ _ _ => goes_ret trivial) fun _ _ _ => goes_ret trivial)
  | confirm_link token =>
      intro got
      cases got with
      | none => exact ⟨_, .link_gone, trivial⟩
      | some e =>
          refine ⟨_, .link_taken, ?_⟩
          intro _
          exact ⟨_, .link_done, _, rfl, rfl⟩
  | confirm_token token nonce =>
      intro got
      cases got with
      | none => exact ⟨_, .nonce_gone, trivial⟩
      | some e =>
          by_cases h : e.token = token
          · refine ⟨_, .nonce_taken h, ?_⟩
            simp only [Prog.bind, Function.comp, ExceptT.bindCont, ne_eq, h, not_true_eq_false,
              if_false]
            intro _
            exact ⟨_, .nonce_done, _, rfl, rfl⟩
          · refine ⟨_, .nonce_wrong h, ?_⟩
            simp only [Prog.bind, Function.comp, ExceptT.bindCont, ne_eq, h, not_false_eq_true,
              if_true]
            trivial

/-! ### What one step does -/

namespace PasswdlessPhase

/-- The challenge the call has put into the cache of nonces. -/
def placed : PasswdlessPhase → Option FA2Entry
  | .half _ e => some e
  | .released _ e => some e
  | _ => none

/-- The challenge it has put into the cache of links too. -/
def out : PasswdlessPhase → Option FA2Entry
  | .released _ e => some e
  | _ => none

end PasswdlessPhase

section Step

variable {c : Crates} {call : PasswdlessCall} {ph ph' : PasswdlessPhase} {o : Op} {r : o.Reply}
  {me : Nat} {ch : Choice} {w w' : World} {e : FA2Entry}

theorem placed_stays (h : PasswdlessStep call ph o r ph') (hp : ph.placed = some e) :
    ph'.placed = some e := by
  cases h with
  | put_link | publish => exact hp
  | _ => cases hp

theorem placed_of_insert {n : String} (h : PasswdlessStep call ph o r ph')
    (ho : (⟨o, r⟩ : (o : Op) × o.Reply) = ⟨.tokens_insert n e, ()⟩) : ph'.placed = some e := by
  have hop := (Sigma.mk.inj ho).1
  cases h with
  | put_nonce =>
      obtain ⟨-, rfl⟩ := Op.tokens_insert.inj hop
      rfl
  | _ => cases hop

theorem out_stays (h : PasswdlessStep call ph o r ph') (hp : ph.out = some e) :
    ph'.out = some e := by
  cases h with
  | publish => exact hp
  | _ => cases hp

/-- What a step does to the cache of nonces. -/
inductive OnTokens (w w' : World) (call : PasswdlessCall) (ph ph' : PasswdlessPhase) :
    (o : Op) → o.Reply → Prop
  | stay {o : Op} {r : o.Reply} (hw : w'.tokens = w.tokens) (ho : ∀ n, o ≠ .tokens_remove n) :
      OnTokens w w' call ph ph' o r
  | put {u : User} {e : FA2Entry} (hph : ph = .ready u e) (hph' : ph' = .half u e)
      (hw : w'.tokens = Function.update w.tokens e.nonce (some e)) :
      OnTokens w w' call ph ph' (.tokens_insert e.nonce e) ()
  | take {n : String} (hw : w'.tokens = Function.update w.tokens n none)
      (hn : (∃ t, call = .confirm_token t n) ∨ ∃ e, ph = .took e ∧ e.nonce = n) :
      OnTokens w w' call ph ph' (.tokens_remove n) (w.tokens n)

/-- What it does to the cache of links. -/
inductive OnLinks (w w' : World) (call : PasswdlessCall) (ph ph' : PasswdlessPhase) :
    (o : Op) → o.Reply → Prop
  | stay {o : Op} {r : o.Reply} (hw : w'.links = w.links) (ho : ∀ l, o ≠ .links_remove l) :
      OnLinks w w' call ph ph' o r
  | put {u : User} {e : FA2Entry} (hph : ph = .half u e) (hph' : ph' = .released u e)
      (hw : w'.links = Function.update w.links e.link (some e)) :
      OnLinks w w' call ph ph' (.links_insert e.link e) ()
  | take {l : String} (hw : w'.links = Function.update w.links l none)
      (hl : call = .confirm_link l ∨ ∃ e, ph = .took e ∧ e.link = l) :
      OnLinks w w' call ph ph' (.links_remove l) (w.links l)

theorem on_tokens (h : PasswdlessStep call ph o r ph')
    (hans : World.answer c me o ch w = some (w', r)) : OnTokens w w' call ph ph' o r := by
  cases h with
  | nobody | found | publish =>
      obtain ⟨_, -, -, hw⟩ := World.answer_sql hans
      exact .stay (by rw [hw]) (by simp)
  | draw_link | draw_nonce => exact .stay (by rw [(World.answer_fill hans).2]) (by simp)
  | draw_otp => exact .stay (by rw [World.answer_idle hans trivial]) (by simp)
  | put_nonce => exact .put rfl rfl (by rw [World.answer_tokens_insert hans])
  | put_link => exact .stay (by rw [World.answer_links_insert hans]) (by simp)
  | link_gone | link_taken | nonce_done =>
      exact .stay (by rw [(World.answer_links_remove hans).1]) (by simp)
  | nonce_gone | nonce_wrong | nonce_taken =>
      obtain ⟨hw, hr⟩ := World.answer_tokens_remove hans
      rw [hr]
      exact .take (by rw [hw]) (.inl ⟨_, rfl⟩)
  | link_done =>
      obtain ⟨hw, hr⟩ := World.answer_tokens_remove hans
      rw [hr]
      exact .take (by rw [hw]) (.inr ⟨_, rfl, rfl⟩)

theorem on_links (h : PasswdlessStep call ph o r ph')
    (hans : World.answer c me o ch w = some (w', r)) : OnLinks w w' call ph ph' o r := by
  cases h with
  | nobody | found | publish =>
      obtain ⟨_, -, -, hw⟩ := World.answer_sql hans
      exact .stay (by rw [hw]) (by simp)
  | draw_link | draw_nonce => exact .stay (by rw [(World.answer_fill hans).2]) (by simp)
  | draw_otp => exact .stay (by rw [World.answer_idle hans trivial]) (by simp)
  | put_nonce => exact .stay (by rw [World.answer_tokens_insert hans]) (by simp)
  | put_link => exact .put rfl rfl (by rw [World.answer_links_insert hans])
  | link_gone | link_taken =>
      obtain ⟨hw, hr⟩ := World.answer_links_remove hans
      rw [hr]
      exact .take (by rw [hw]) (.inl rfl)
  | nonce_done =>
      obtain ⟨hw, hr⟩ := World.answer_links_remove hans
      rw [hr]
      exact .take (by rw [hw]) (.inr ⟨_, rfl, rfl⟩)
  | nonce_gone | nonce_wrong | nonce_taken | link_done =>
      exact .stay (by rw [(World.answer_tokens_remove hans).1]) (by simp)

/-- A draw, and what has been drawn by then. -/
theorem drawn_cons {log : List ((o : Op) × o.Reply)} {s : String}
    (hans : World.answer c me o ch w = some (w', r)) (hs : s ∈ drawn_tokens (⟨o, r⟩ :: log)) :
    s ∈ drawn_tokens log ∨ ∃ n bytes, o = .fill n ∧ ch = .bytes bytes ∧ base64url bytes = s := by
  cases o with
  | fill n =>
      obtain ⟨hch, -⟩ := World.answer_fill hans
      have hs : s ∈ base64url r :: drawn_tokens log := hs
      rcases List.mem_cons.mp hs with rfl | hs
      · exact .inr ⟨n, _, rfl, hch, rfl⟩
      · exact .inl hs
  | _ => exact .inl hs

end Step

/-! ### The log of a call -/

section Logs

variable {call : PasswdlessCall} {log : List ((o : Op) × o.Reply)} {u : User} {e : FA2Entry}

theorem Prepared.drawn (h : Prepared call log u e) :
    e.link ∈ drawn_tokens log ∧ e.nonce ∈ drawn_tokens log := by
  obtain ⟨-, before, rfl, bytes, before, rfl, hnonce, bytes', before', rfl, hlink, -⟩ := h
  refine ⟨mem_drawn_tokens_cons (mem_drawn_tokens_cons ?_ _) _, mem_drawn_tokens_cons ?_ _⟩
  · rw [drawn_tokens_cons_fill, hlink]
    exact List.mem_cons_self
  · rw [drawn_tokens_cons_fill, hnonce]
    exact List.mem_cons_self

theorem Released.drawn (h : Released call log u e) :
    e.link ∈ drawn_tokens log ∧ e.nonce ∈ drawn_tokens log := by
  obtain ⟨after, before, rfl, hprep⟩ := h
  have hmem : ∀ {s}, s ∈ drawn_tokens before →
      s ∈ drawn_tokens (after ++ ⟨.tokens_insert e.nonce e, ()⟩ :: before) := by
    intro s hs
    unfold drawn_tokens at hs ⊢
    rw [List.filterMap_append]
    exact List.mem_append_right _ (mem_drawn_tokens_cons hs _)
  exact ⟨hmem hprep.drawn.1, hmem hprep.drawn.2⟩

/-- A released challenge stays released. -/
theorem Released.cons (h : Released call log u e) (x : (o : Op) × o.Reply) :
    Released call (x :: log) u e := by
  obtain ⟨after, before, rfl, hprep⟩ := h
  exact ⟨x :: after, before, rfl, hprep⟩

end Logs

/-! ### The invariant -/

/-- What a call has done by the time it is in a phase. -/
def Fits (call : PasswdlessCall) (log : List ((o : Op) × o.Reply)) : PasswdlessPhase → Prop
  | .seeking => log = []
  | .found u => Finds call log u
  | .linked u link => LinkDrawn call log u link
  | .named u link nonce => NonceDrawn call log u link nonce
  | .ready u e => Prepared call log u e
  | .half u e => Released call log u e
  | .released u e => Released call log u e ∧ ⟨.links_insert e.link e, ()⟩ ∈ log
  | .took e => (∃ l, call = .confirm_link l ∧ ⟨.links_remove l, some e⟩ ∈ log) ∨
      ∃ n, call = .confirm_token e.token n ∧ ⟨.tokens_remove n, some e⟩ ∈ log
  | .lost => True

theorem fits_step {call : PasswdlessCall} {log : List ((o : Op) × o.Reply)} {o : Op} {r : o.Reply}
    {ph ph' : PasswdlessPhase} {c : Crates} {me : Nat} {ch : Choice} {w w' : World}
    (h : PasswdlessStep call ph o r ph') (hans : World.answer c me o ch w = some (w', r))
    (hfits : Fits call log ph) : Fits call (⟨o, r⟩ :: log) ph' := by
  cases h with
  | nobody | link_gone | nonce_gone | nonce_wrong => trivial
  | @found _ p rows u hp hu =>
      obtain rfl := hfits
      refine ⟨?_, p, rows, rfl, hu⟩
      obtain ⟨-, hr | hr⟩ := World.answer_select hans
      · obtain rfl := Except.ok.inj hr
        obtain ⟨rec, hrec, hprj⟩ := List.mem_filterMap.mp (List.mem_of_mem_head? hu)
        obtain rfl := users.inj_of_prj hprj
        exact hp u (List.mem_filter.mp hrec).2
      · cases hr
  | draw_link => exact ⟨_, _, rfl, rfl, hfits⟩
  | draw_nonce => exact ⟨_, _, rfl, rfl, hfits⟩
  | draw_otp => exact ⟨rfl, _, rfl, hfits⟩
  | put_nonce => exact ⟨[], _, rfl, hfits⟩
  | put_link => exact ⟨hfits.cons _, List.mem_cons_self⟩
  | publish => exact ⟨hfits.1.cons _, List.mem_cons_of_mem _ hfits.2⟩
  | link_taken => exact .inl ⟨_, rfl, List.mem_cons_self⟩
  | nonce_taken h => exact .inr ⟨_, by rw [h], List.mem_cons_self⟩
  | link_done | nonce_done =>
      rcases hfits with ⟨l, hcall, hmem⟩ | ⟨n, hcall, hmem⟩
      · exact .inl ⟨l, hcall, List.mem_cons_of_mem _ hmem⟩
      · exact .inr ⟨n, hcall, List.mem_cons_of_mem _ hmem⟩

/-- Some call has put the challenge into the cache of nonces. -/
def Placed (gs : List PasswdlessGhost) (e : FA2Entry) : Prop :=
  ∃ (r : Nat) (g : PasswdlessGhost), gs[r]? = some g ∧ g.phase.placed = some e

/-- Some call has put it into the cache of links too. -/
def Out (gs : List PasswdlessGhost) (e : FA2Entry) : Prop :=
  ∃ (r : Nat) (g : PasswdlessGhost), gs[r]? = some g ∧ g.phase.out = some e

/-- Call `i` has had this reply. -/
def Logged (gs : List PasswdlessGhost) (i : Nat) (x : (o : Op) × o.Reply) : Prop :=
  ∃ g : PasswdlessGhost, gs[i]? = some g ∧ x ∈ g.log

/-- The calls have done what their phases say, no two have drawn the same text, and each cache
has at most one taker for each of its names. -/
structure Guarded (w : World) (gs : List PasswdlessGhost) : Prop where
  fits : ∀ {j : Nat} {g : PasswdlessGhost}, gs[j]? = some g → Fits g.call g.log g.phase
  inserted : ∀ {j : Nat} {g : PasswdlessGhost} {n : String} {e : FA2Entry}, gs[j]? = some g →
    ⟨.tokens_insert n e, ()⟩ ∈ g.log → g.phase.placed = some e
  apart : ∀ {j j' : Nat} {g g' : PasswdlessGhost} {s : String}, gs[j]? = some g →
    gs[j']? = some g' → s ∈ drawn_tokens g.log → s ∈ drawn_tokens g'.log → j = j'
  tokens : OneTaker FA2Entry.nonce w.tokens (Placed gs) fun i n e =>
    Logged gs i ⟨.tokens_remove n, some e⟩
  links : OneTaker FA2Entry.link w.links (Out gs) fun i l e => Logged gs i ⟨.links_remove l, some e⟩

section Preserved

variable {w w' : World} {gs : List PasswdlessGhost}

theorem Guarded.placed (hI : Guarded w gs) {r : Nat} {g : PasswdlessGhost} {e : FA2Entry}
    (hg : gs[r]? = some g) (hp : g.phase.placed = some e) : ∃ u, Released g.call g.log u e := by
  have hfits := hI.fits hg
  cases hph : g.phase with
  | half u e' =>
      rw [hph] at hp hfits
      obtain rfl := Option.some.inj hp
      exact ⟨u, hfits⟩
  | released u e' =>
      rw [hph] at hp hfits
      obtain rfl := Option.some.inj hp
      exact ⟨u, hfits.1⟩
  | _ =>
      rw [hph] at hp
      cases hp

theorem placed_of_out {ph : PasswdlessPhase} {e : FA2Entry} (h : ph.out = some e) :
    ph.placed = some e := by
  cases ph with
  | released u e' => exact h
  | _ => cases h

theorem Out.placed {e : FA2Entry} (h : Out gs e) : Placed gs e := by
  obtain ⟨r, g, hg, hout⟩ := h
  exact ⟨r, g, hg, placed_of_out hout⟩

/-- Two challenges with a name in common are one. -/
theorem Guarded.same (hI : Guarded w gs) {e e' : FA2Entry} (h : Placed gs e) (h' : Placed gs e')
    (hname : e.link = e'.link ∨ e.nonce = e'.nonce) : e = e' := by
  obtain ⟨r, g, hg, hp⟩ := h
  obtain ⟨r', g', hg', hp'⟩ := h'
  obtain ⟨u, hrel⟩ := hI.placed hg hp
  obtain ⟨u', hrel'⟩ := hI.placed hg' hp'
  have hr : r = r' := by
    rcases hname with hname | hname
    · exact hI.apart hg hg' hrel.drawn.1 (hname ▸ hrel'.drawn.1)
    · exact hI.apart hg hg' hrel.drawn.2 (hname ▸ hrel'.drawn.2)
  subst hr
  obtain rfl := Option.some.inj (hg.symm.trans hg')
  exact Option.some.inj (hp.symm.trans hp')

theorem Guarded.spawn (hI : Guarded w gs) (call : PasswdlessCall) :
    Guarded w (gs ++ [⟨call, [], .seeking⟩]) := by
  have hold : ∀ {j : Nat} {g : PasswdlessGhost}, gs[j]? = some g →
      (gs ++ [⟨call, [], .seeking⟩])[j]? = some g := by
    intro j g hg
    rw [List.getElem?_append_left (List.getElem?_eq_some_iff.mp hg).1, hg]
  have hlogged : ∀ {j : Nat} {x : (o : Op) × o.Reply},
      Logged (gs ++ [⟨call, [], .seeking⟩]) j x → Logged gs j x := by
    intro j x hpost
    obtain ⟨g, hg, hmem⟩ := hpost
    rcases get_snoc_cases hg with ⟨-, rfl⟩ | hg
    · cases hmem
    · exact ⟨g, hg, hmem⟩
  refine ⟨fun {j g} hj => ?_, fun {j g n e} hj hmem => ?_, fun {j j' g g' s} hj hj' hs hs' => ?_,
    hI.tokens.stay ?_ hlogged, hI.links.stay ?_ hlogged⟩
  · rcases get_snoc_cases hj with ⟨-, rfl⟩ | hj
    · rfl
    · exact hI.fits hj
  · rcases get_snoc_cases hj with ⟨-, rfl⟩ | hj
    · cases hmem
    · exact hI.inserted hj hmem
  · rcases get_snoc_cases hj with ⟨-, rfl⟩ | hj
    · cases hs
    · rcases get_snoc_cases hj' with ⟨-, rfl⟩ | hj'
      · cases hs'
      · exact hI.apart hj hj' hs hs'
  · intro e hpost
    obtain ⟨r, g, hg, hp⟩ := hpost
    exact ⟨r, g, hold hg, hp⟩
  · intro e hpost
    obtain ⟨r, g, hg, hp⟩ := hpost
    exact ⟨r, g, hold hg, hp⟩

theorem Guarded.expire (hI : Guarded w gs) (ev : Expiry) : Guarded (w.expire ev) gs := by
  cases ev with
  | token k => exact ⟨hI.fits, hI.inserted, hI.apart, hI.tokens.expire k, hI.links⟩
  | link k => exact ⟨hI.fits, hI.inserted, hI.apart, hI.tokens, hI.links.expire k⟩
  | user | reg_state | auth_state => exact ⟨hI.fits, hI.inserted, hI.apart, hI.tokens, hI.links⟩

/-- One call's step, with everything known about it. -/
structure Passing (c : Crates) (cfg : PasswdlessConfig) (gs : List PasswdlessGhost) (i : Nat)
    (ch : Choice) (g : PasswdlessGhost) (o : Op) (r : o.Reply) (ph : PasswdlessPhase)
    (w' : World) : Prop where
  tracked : Protocol.Tracked passing cfg gs
  ghost : gs[i]? = some g
  next : cfg.next i = some o
  ans : World.answer c i o ch cfg.shared = some (w', r)
  step : PasswdlessStep g.call g.phase o r ph
  fresh : draws_new cfg (.step i ch) = true

namespace Passing

variable {c : Crates} {cfg : PasswdlessConfig} {i : Nat} {ch : Choice} {g : PasswdlessGhost}
  {o : Op} {r : o.Reply} {ph : PasswdlessPhase}

/-- What is drawn is new to every call. -/
theorem undrawn (h : Passing c cfg gs i ch g o r ph w') {n : Nat} {bytes : List UInt8}
    (ho : o = .fill n) (hch : ch = .bytes bytes) {j : Nat} {x : PasswdlessGhost}
    (hj : gs[j]? = some x) : base64url bytes ∉ drawn_tokens x.log := by
  obtain ⟨th, hth, -, hlog, -⟩ := h.tracked.thread hj
  have hd := h.fresh
  have hn := h.next
  rw [ho] at hn
  rw [hch] at hd
  simp only [draws_new, hn, List.all_eq_true, Bool.not_eq_true', List.contains_eq_mem,
    decide_eq_false_iff_not] at hd
  rw [hlog]
  exact hd th (List.mem_of_getElem? hth)

theorem apart (h : Passing c cfg gs i ch g o r ph w') (hI : Guarded cfg.shared gs) {j j' : Nat}
    {x x' : PasswdlessGhost} {s : String}
    (hj : (gs.set i ⟨g.call, ⟨o, r⟩ :: g.log, ph⟩)[j]? = some x)
    (hj' : (gs.set i ⟨g.call, ⟨o, r⟩ :: g.log, ph⟩)[j']? = some x')
    (hs : s ∈ drawn_tokens x.log) (hs' : s ∈ drawn_tokens x'.log) : j = j' := by
  -- a text both have was drawn before, by the one that acts too
  have hback : ∀ {k : Nat} {y : PasswdlessGhost}, gs[k]? = some y → s ∈ drawn_tokens y.log →
      s ∈ drawn_tokens (⟨o, r⟩ :: g.log) → k = i := by
    intro k y hk hy hs
    rcases drawn_cons h.ans hs with hs | ⟨n, bytes, ho, hch, rfl⟩
    · exact hI.apart hk h.ghost hy hs
    · exact absurd hy (h.undrawn ho hch hk)
  rcases get_set_cases hj with ⟨rfl, rfl⟩ | ⟨-, hold⟩
  · rcases get_set_cases hj' with ⟨rfl, rfl⟩ | ⟨-, hold'⟩
    · rfl
    · exact (hback hold' hs' hs).symm
  · rcases get_set_cases hj' with ⟨rfl, rfl⟩ | ⟨-, hold'⟩
    · exact hback hold hs hs'
    · exact hI.apart hold hold' hs hs'

/-- The calls after the step: whoever had placed a challenge still has. -/
theorem placed (h : Passing c cfg gs i ch g o r ph w') {e : FA2Entry} (hp : Placed gs e) :
    Placed (gs.set i ⟨g.call, ⟨o, r⟩ :: g.log, ph⟩) e := by
  obtain ⟨j, x, hj, hx⟩ := hp
  by_cases hij : i = j
  · subst hij
    obtain rfl := Option.some.inj (h.ghost.symm.trans hj)
    exact ⟨i, _, List.getElem?_set_self (List.getElem?_eq_some_iff.mp hj).1,
      placed_stays h.step hx⟩
  · exact ⟨j, x, by rw [List.getElem?_set_ne hij, hj], hx⟩

theorem out (h : Passing c cfg gs i ch g o r ph w') {e : FA2Entry} (hp : Out gs e) :
    Out (gs.set i ⟨g.call, ⟨o, r⟩ :: g.log, ph⟩) e := by
  obtain ⟨j, x, hj, hx⟩ := hp
  by_cases hij : i = j
  · subst hij
    obtain rfl := Option.some.inj (h.ghost.symm.trans hj)
    exact ⟨i, _, List.getElem?_set_self (List.getElem?_eq_some_iff.mp hj).1, out_stays h.step hx⟩
  · exact ⟨j, x, by rw [List.getElem?_set_ne hij, hj], hx⟩

/-- Nobody has placed a challenge under a name of the one that is prepared. -/
theorem unplaced (h : Passing c cfg gs i ch g o r ph w') (hI : Guarded cfg.shared gs) {u : User}
    {e e' : FA2Entry} (hph : g.phase = .ready u e) (hp : Placed gs e') : e'.nonce ≠ e.nonce := by
  intro hname
  obtain ⟨j, x, hj, hx⟩ := hp
  obtain ⟨u', hrel⟩ := hI.placed hj hx
  have hprep : Prepared g.call g.log u e := by
    have hfits := hI.fits h.ghost
    rwa [hph] at hfits
  obtain rfl := hI.apart hj h.ghost hrel.drawn.2 (hname ▸ hprep.drawn.2)
  obtain rfl := Option.some.inj (hj.symm.trans h.ghost)
  rw [hph] at hx
  cases hx

theorem unlinked (h : Passing c cfg gs i ch g o r ph w') (hI : Guarded cfg.shared gs) {u : User}
    {e e' : FA2Entry} (hph : g.phase = .half u e) (hp : Out gs e') : e'.link ≠ e.link := by
  intro hname
  obtain rfl := hI.same hp.placed ⟨i, g, h.ghost, by rw [hph]; rfl⟩ (.inl hname)
  obtain ⟨j, x, hj, hx⟩ := hp
  obtain ⟨u', hrel⟩ := hI.placed hj (placed_of_out hx)
  have hrel₀ : Released g.call g.log u e' := by
    have hfits := hI.fits h.ghost
    rwa [hph] at hfits
  obtain rfl := hI.apart hj h.ghost hrel.drawn.1 hrel₀.drawn.1
  obtain rfl := Option.some.inj (hj.symm.trans h.ghost)
  rw [hph] at hx
  cases hx

/-- A reply on record was so before, or is the one just had. -/
theorem logged (h : Passing c cfg gs i ch g o r ph w') {j : Nat} {x : (o : Op) × o.Reply}
    (hx : Logged (gs.set i ⟨g.call, ⟨o, r⟩ :: g.log, ph⟩) j x) :
    Logged gs j x ∨ j = i ∧ x = ⟨o, r⟩ := by
  obtain ⟨y, hy, hmem⟩ := hx
  rcases get_set_cases hy with ⟨rfl, rfl⟩ | ⟨-, hold⟩
  · rcases List.mem_cons.mp hmem with rfl | hmem
    · exact .inr ⟨rfl, rfl⟩
    · exact .inl ⟨g, h.ghost, hmem⟩
  · exact .inl ⟨y, hold, hmem⟩

theorem tokens (h : Passing c cfg gs i ch g o r ph w') (hI : Guarded cfg.shared gs) :
    OneTaker FA2Entry.nonce w'.tokens (Placed (gs.set i ⟨g.call, ⟨o, r⟩ :: g.log, ph⟩))
      fun j n e => Logged (gs.set i ⟨g.call, ⟨o, r⟩ :: g.log, ph⟩) j ⟨.tokens_remove n, some e⟩ := by
  have hon := on_tokens h.step h.ans
  cases hon with
  | stay hw ho =>
      rw [hw]
      refine hI.tokens.stay h.placed fun {j n e} hx => ?_
      rcases h.logged hx with hold | ⟨-, hx⟩
      · exact hold
      · exact absurd (Sigma.mk.inj hx).1.symm (ho n)
  | put hph hph' hw =>
      rw [hw]
      refine hI.tokens.put h.placed (fun {j n e} hx => ?_) ?_ fun hp => h.unplaced hI hph hp
      · rcases h.logged hx with hold | ⟨-, hx⟩
        · exact hold
        · cases (Sigma.mk.inj hx).1
      · exact ⟨i, _, List.getElem?_set_self (List.getElem?_eq_some_iff.mp h.ghost).1, by rw [hph']; rfl⟩
  | take hw hn =>
      rw [hw]
      refine hI.tokens.take (i := i) h.placed fun {j n e} hx => ?_
      rcases h.logged hx with hold | ⟨rfl, heq⟩
      · exact .inl hold
      · obtain ⟨ho, hr⟩ := Sigma.mk.inj heq
        obtain rfl := Op.tokens_remove.inj ho
        exact .inr ⟨rfl, rfl, (eq_of_heq hr).symm⟩

theorem links (h : Passing c cfg gs i ch g o r ph w') (hI : Guarded cfg.shared gs) :
    OneTaker FA2Entry.link w'.links (Out (gs.set i ⟨g.call, ⟨o, r⟩ :: g.log, ph⟩))
      fun j l e => Logged (gs.set i ⟨g.call, ⟨o, r⟩ :: g.log, ph⟩) j ⟨.links_remove l, some e⟩ := by
  have hon := on_links h.step h.ans
  cases hon with
  | stay hw ho =>
      rw [hw]
      refine hI.links.stay h.out fun {j l e} hx => ?_
      rcases h.logged hx with hold | ⟨-, hx⟩
      · exact hold
      · exact absurd (Sigma.mk.inj hx).1.symm (ho l)
  | put hph hph' hw =>
      rw [hw]
      refine hI.links.put h.out (fun {j l e} hx => ?_) ?_ fun hp => h.unlinked hI hph hp
      · rcases h.logged hx with hold | ⟨-, hx⟩
        · exact hold
        · cases (Sigma.mk.inj hx).1
      · exact ⟨i, _, List.getElem?_set_self (List.getElem?_eq_some_iff.mp h.ghost).1, by rw [hph']; rfl⟩
  | take hw hl =>
      rw [hw]
      refine hI.links.take (i := i) h.out fun {j l e} hx => ?_
      rcases h.logged hx with hold | ⟨rfl, heq⟩
      · exact .inl hold
      · obtain ⟨ho, hr⟩ := Sigma.mk.inj heq
        obtain rfl := Op.links_remove.inj ho
        exact .inr ⟨rfl, rfl, (eq_of_heq hr).symm⟩

theorem kept (h : Passing c cfg gs i ch g o r ph w') (hI : Guarded cfg.shared gs) :
    Guarded w' (gs.set i ⟨g.call, ⟨o, r⟩ :: g.log, ph⟩) := by
  refine ⟨fun {j x} hj => ?_, fun {j x n e} hj hmem => ?_, h.apart hI, h.tokens hI, h.links hI⟩
  · rcases get_set_cases hj with ⟨rfl, rfl⟩ | ⟨-, hj⟩
    · exact fits_step h.step h.ans (hI.fits h.ghost)
    · exact hI.fits hj
  · rcases get_set_cases hj with ⟨rfl, rfl⟩ | ⟨-, hj⟩
    · rcases List.mem_cons.mp hmem with heq | hmem
      · exact placed_of_insert h.step heq.symm
      · exact placed_stays h.step (hI.inserted h.ghost hmem)
    · exact hI.inserted hj hmem

end Passing

/-- No call yet, and empty caches. -/
theorem guarded_nil (rows : List Record) : Guarded (World.of rows) [] where
  fits hj := nomatch hj
  inserted hj := nomatch hj
  apart hj := nomatch hj
  tokens := ⟨fun h => (nomatch h), fun ⟨_, hg, _⟩ => (nomatch hg), fun ⟨_, hg, _⟩ => (nomatch hg)⟩
  links := ⟨fun h => (nomatch h), fun ⟨_, hg, _⟩ => (nomatch hg), fun ⟨_, hg, _⟩ => (nomatch hg)⟩

/-- **After every run whose draws are new.** -/
theorem guarded_run {c : Crates} {rows : List Record} {evs : List PasswdlessEvent}
    {cfg : PasswdlessConfig}
    (hdraws : (passwdless c).Along (fun cfg ev => draws_new cfg ev = true) ⟨World.of rows, []⟩ evs)
    (hrun : (passwdless c).run ⟨World.of rows, []⟩ evs = some cfg) :
    ∃ gs, Protocol.Tracked passing cfg gs ∧ Guarded cfg.shared gs := by
  refine Protocol.run_tracks (passing_follows c) Guarded ?_
    ⟨[], Protocol.tracked_nil _ _, guarded_nil rows⟩ hdraws hrun
  intro cfg gs ev s' gs' htr hI hC hmv
  cases hmv with
  | spawn call => exact hI.spawn call
  | step hg hcall hnext hans hstep =>
      exact Passing.kept ⟨htr, hg, hnext, hans, hstep, hC⟩ hI
  | env ev => exact hI.expire ev

end Preserved

/-! ### One guess -/

section Guessing

variable {c : Crates} {cfg : PasswdlessConfig} {gs : List PasswdlessGhost}

theorem logged_iff (htr : Protocol.Tracked passing cfg gs) {i : Nat} {x : (o : Op) × o.Reply} :
    Logged gs i x ↔ x ∈ cfg.log i := by
  constructor
  · intro hpost
    obtain ⟨g, hg, hmem⟩ := hpost
    rwa [htr.log hg]
  · intro hmem
    cases hi : gs[i]? with
    | none =>
        have hlen := List.getElem?_eq_none_iff.mp hi
        rw [htr.length] at hlen
        rw [Config.log, List.getElem?_eq_none_iff.mpr hlen] at hmem
        cases hmem
    | some g => exact ⟨g, hi, by rwa [← htr.log hi]⟩

theorem ReleasedBy.placed (htr : Protocol.Tracked passing cfg gs) (hI : Guarded cfg.shared gs)
    {r : Nat} {u : User} {e : FA2Entry} (h : ReleasedBy cfg r u e) :
    ∃ g, gs[r]? = some g ∧ g.phase.placed = some e ∧ Released g.call g.log u e := by
  obtain ⟨call, hcall, hrel⟩ := h
  obtain ⟨after, before, hlog, -⟩ := id hrel
  obtain ⟨g, hg, hmem⟩ := (logged_iff htr (i := r) (x := ⟨.tokens_insert e.nonce e, ()⟩)).mpr
    (by rw [hlog]; exact List.mem_append_right _ List.mem_cons_self)
  obtain rfl := Option.some.inj ((htr.call hg).symm.trans hcall)
  exact ⟨g, hg, hI.inserted hg hmem, htr.log hg ▸ hrel⟩

/-- Whoever placed a challenge released it. -/
theorem releasedBy_of_placed (htr : Protocol.Tracked passing cfg gs) (hI : Guarded cfg.shared gs)
    {r : Nat} {g : PasswdlessGhost} {e : FA2Entry} (hg : gs[r]? = some g)
    (hp : g.phase.placed = some e) : ∃ u, ReleasedBy cfg r u e := by
  obtain ⟨u, hrel⟩ := hI.placed hg hp
  exact ⟨u, g.call, htr.call hg, by rwa [htr.log hg]⟩

/-- A confirmation that has taken a challenge was shown it. -/
theorem Guarded.took (hI : Guarded cfg.shared gs) {i : Nat} {g : PasswdlessGhost} {e : FA2Entry}
    (hg : gs[i]? = some g) (hph : g.phase = .took e) :
    Placed gs e ∧ (g.call = .confirm_link e.link ∨
      g.call = .confirm_token e.token e.nonce ∧ Logged gs i ⟨.tokens_remove e.nonce, some e⟩) := by
  have hfits := hI.fits hg
  rw [hph] at hfits
  rcases hfits with ⟨l, hcall, hmem⟩ | ⟨n, hcall, hmem⟩
  · obtain ⟨rfl, hout, -⟩ := hI.links.taken (i := i) ⟨g, hg, hmem⟩
    exact ⟨hout.placed, .inl hcall⟩
  · obtain ⟨rfl, hp, -⟩ := hI.tokens.taken (i := i) ⟨g, hg, hmem⟩
    exact ⟨hp, .inr ⟨hcall, g, hg, hmem⟩⟩

/-- A confirmation by nonce that lets somebody in has compared, and rightly. -/
theorem compares_of_lets_in (htr : Protocol.Tracked passing cfg gs) (hI : Guarded cfg.shared gs)
    {e : FA2Entry} (he : Placed gs e) {i t : Nat} {v : Uuid}
    (hcall : cfg.call i = some (.confirm_token t e.nonce)) (hin : LetsIn cfg i v) :
    Compares cfg e i t ∧ t = e.token ∧ v = e.email := by
  obtain ⟨g, hg, e', hph, hv⟩ := htr.final hin
  have hcall' := Option.some.inj ((htr.call hg).symm.trans hcall)
  obtain ⟨hp, hshow | ⟨hshow, hlog⟩⟩ := hI.took hg hph
  · cases hshow.symm.trans hcall'
  · obtain ⟨htok, hnonce⟩ := PasswdlessCall.confirm_token.inj (hshow.symm.trans hcall')
    obtain rfl := hI.same hp he (.inr hnonce)
    exact ⟨⟨hcall, (logged_iff htr).mp hlog⟩, htok.symm, hv.symm⟩

/-- At most one confirmation compares its number with the challenge's; whoever is let in by the
nonce compared, its number was right, and so was that of any confirmation that compared. -/
structure OneGuess (cfg : PasswdlessConfig) (e : FA2Entry) : Prop where
  once : ∀ {i j t t' : Nat}, Compares cfg e i t → Compares cfg e j t' → i = j
  first : ∀ {i t : Nat} {v : Uuid}, cfg.call i = some (.confirm_token t e.nonce) →
    LetsIn cfg i v → Compares cfg e i t ∧ t = e.token ∧ v = e.email ∧
      ∀ {j t' : Nat}, Compares cfg e j t' → t' = e.token

theorem one_guess_of_guarded (htr : Protocol.Tracked passing cfg gs) (hI : Guarded cfg.shared gs)
    {e : FA2Entry} (he : Placed gs e) : OneGuess cfg e := by
  have honce : ∀ {i j t t' : Nat}, Compares cfg e i t → Compares cfg e j t' → i = j :=
    fun h h' => hI.tokens.once ((logged_iff htr).mpr h.2) ((logged_iff htr).mpr h'.2)
  refine ⟨honce, fun {i t v} hcall hin => ?_⟩
  obtain ⟨hcmp, htok, hv⟩ := compares_of_lets_in htr hI he hcall hin
  refine ⟨hcmp, htok, hv, fun {j t'} hcmp' => ?_⟩
  obtain rfl := honce hcmp hcmp'
  obtain ⟨rfl, -⟩ := PasswdlessCall.confirm_token.inj (Option.some.inj (hcmp.1.symm.trans hcmp'.1))
  exact htok

end Guessing

/-- **One guess for each challenge.** In every run whose draws are new, at most one confirmation
compares its number with the challenge's.  Once a wrong number has been compared, no confirmation
of that nonce succeeds any more, however the run goes on. -/
theorem one_guess_each (c : Crates) (rows : List Record) (evs evs' : List PasswdlessEvent)
    (cfg cfg' : PasswdlessConfig)
    (hdraws : (passwdless c).Along (fun cfg ev => draws_new cfg ev = true) ⟨World.of rows, []⟩
      (evs ++ evs'))
    (hrun : (passwdless c).run ⟨World.of rows, []⟩ evs = some cfg)
    (hrun' : (passwdless c).run cfg evs' = some cfg') (r : Nat) (u : User) (e : FA2Entry)
    (hrel : ReleasedBy cfg r u e) :
    OneGuess cfg e ∧ ∀ j t', Compares cfg e j t' → t' ≠ e.token →
      ∀ i t v, cfg'.call i = some (.confirm_token t e.nonce) → ¬ LetsIn cfg' i v := by
  obtain ⟨gs, htr, hI⟩ := guarded_run (System.along_append hdraws hrun).1 hrun
  obtain ⟨g, hg, hp, -⟩ := hrel.placed htr hI
  refine ⟨one_guess_of_guarded htr hI ⟨r, g, hg, hp⟩, ?_⟩
  intro j t' hcmp hwrong i t v hcall hin
  obtain ⟨gs', htr', hI'⟩ := guarded_run hdraws (System.run_append.mpr ⟨cfg, hrun, hrun'⟩)
  have hcmp' : Compares cfg' e j t' :=
    ⟨System.run_threads hrun' hcmp.1, System.run_log hrun' hcmp.2⟩
  obtain ⟨-, hp', -⟩ := hI'.tokens.taken ((logged_iff htr').mpr hcmp'.2)
  exact hwrong (((one_guess_of_guarded htr' hI' hp').first hcall hin).2.2.2 hcmp')

/-- Alice asks for a challenge, and somebody guesses wrong. -/
def wrong_guess : List PasswdlessEvent :=
  [.spawn (.challenge_by_email "alice@example.com"), .step 0 .go,
    .step 0 (.bytes (List.replicate 32 1)), .step 0 (.bytes (List.replicate 32 2)),
    .step 0 (.number 123456), .step 0 .go, .step 0 .go,
    .spawn (.confirm_token 111111 (token_of 2)), .step 1 .go]

/-- The right number comes too late. -/
def late_guess : List PasswdlessEvent :=
  [.spawn (.confirm_token 123456 (token_of 2)), .step 2 .go]

def sample_entry : FA2Entry :=
  { link := token_of 1, token := 123456, email := 7, nonce := token_of 2 }

def sample_rows : List Record := [.user (sample_user "old password")]

theorem one_guess_each_for_alice : ∃ cfg cfg',
    (passwdless sample_crates).run ⟨World.of sample_rows, []⟩ wrong_guess = some cfg ∧
    (passwdless sample_crates).run cfg late_guess = some cfg' ∧
    Compares cfg sample_entry 1 111111 ∧ OneGuess cfg sample_entry ∧ ¬ LetsIn cfg' 2 7 := by
  have hruns : ∃ cfg cfg',
      (passwdless sample_crates).run ⟨World.of sample_rows, []⟩ wrong_guess = some cfg ∧
      (passwdless sample_crates).run cfg late_guess = some cfg' ∧
      Compares cfg sample_entry 1 111111 ∧
      ReleasedBy cfg 0 (sample_user "old password") sample_entry ∧
      cfg'.call 2 = some (.confirm_token 123456 sample_entry.nonce) :=
    ⟨_, _, rfl, rfl, ⟨rfl, List.mem_cons_self⟩,
      ⟨.challenge_by_email "alice@example.com", rfl, [⟨.links_insert (token_of 1) sample_entry, ()⟩],
      _, rfl, rfl, _, rfl, List.replicate 32 2, _, rfl, rfl, List.replicate 32 1, _, rfl, rfl, rfl,
      users.sel fun u => u.email == "alice@example.com", sample_rows, rfl, rfl⟩, rfl⟩
  obtain ⟨cfg, cfg', hrun, hrun', hcmp, hrel, hcall⟩ := hruns
  have hguess := one_guess_each sample_crates sample_rows wrong_guess late_guess cfg cfg'
    (by decide) hrun hrun' 0 _ sample_entry hrel
  exact ⟨cfg, cfg', hrun, hrun', hcmp, hguess.1, hguess.2 1 111111 hcmp (by decide) 2 _ 7 hcall⟩

/-! ### Challenges apart -/

/-- The caches hold released challenges under their own names, no name is of two challenges, and
whoever is let in was shown a challenge released for that account. -/
structure ChallengesApart (cfg : PasswdlessConfig) : Prop where
  tokens : ∀ {n : String} {e : FA2Entry}, cfg.shared.tokens n = some e →
    e.nonce = n ∧ ∃ r u, ReleasedBy cfg r u e
  links : ∀ {l : String} {e : FA2Entry}, cfg.shared.links l = some e →
    e.link = l ∧ ∃ r u, ReleasedBy cfg r u e ∧ ⟨.links_insert e.link e, ()⟩ ∈ cfg.log r
  one_call : ∀ {r r' : Nat} {u u' : User} {e e' : FA2Entry}, ReleasedBy cfg r u e →
    ReleasedBy cfg r' u' e' → e.link = e'.link ∨ e.nonce = e'.nonce → r = r' ∧ e = e'
  one_shown : ∀ {r r' : Nat} {u u' : User} {e e' : FA2Entry} {call : PasswdlessCall},
    ReleasedBy cfg r u e → ReleasedBy cfg r' u' e' → call.shows e → call.shows e' → e = e'
  lets_in : ∀ {i : Nat} {v : Uuid}, LetsIn cfg i v → ∃ r u e, ReleasedBy cfg r u e ∧ u.id = v ∧
    (cfg.call i = some (.confirm_link e.link) ∨
      cfg.call i = some (.confirm_token e.token e.nonce))

/-- An entry stays through the event, unless it expires then or a call that was shown its challenge
has the step. -/
structure LeavesOthers (cfg : PasswdlessConfig) (ev : PasswdlessEvent) (cfg' : PasswdlessConfig) :
    Prop where
  tokens : ∀ {n : String} {e : FA2Entry}, cfg.shared.tokens n = some e →
    cfg'.shared.tokens n = some e ∨ ev = .env (.token n) ∨
      ∃ i ch call, ev = .step i ch ∧ cfg.call i = some call ∧ call.shows e
  links : ∀ {l : String} {e : FA2Entry}, cfg.shared.links l = some e →
    cfg'.shared.links l = some e ∨ ev = .env (.link l) ∨
      ∃ i ch call, ev = .step i ch ∧ cfg.call i = some call ∧ call.shows e

section Apart

variable {c : Crates} {cfg : PasswdlessConfig} {gs : List PasswdlessGhost}

theorem Released.user {call : PasswdlessCall} {log : List ((o : Op) × o.Reply)} {u : User}
    {e : FA2Entry} (h : Released call log u e) : e.email = u.id := by
  obtain ⟨_, _, -, hemail, -⟩ := h
  exact hemail

theorem challenges_apart_of_guarded (htr : Protocol.Tracked passing cfg gs)
    (hI : Guarded cfg.shared gs) : ChallengesApart cfg := by
  have hone : ∀ {r r' : Nat} {u u' : User} {e e' : FA2Entry}, ReleasedBy cfg r u e →
      ReleasedBy cfg r' u' e' → e.link = e'.link ∨ e.nonce = e'.nonce → r = r' ∧ e = e' := by
    intro r r' u u' e e' h h' hname
    obtain ⟨g, hg, hp, hrel⟩ := h.placed htr hI
    obtain ⟨g', hg', hp', hrel'⟩ := h'.placed htr hI
    obtain rfl := hI.same ⟨r, g, hg, hp⟩ ⟨r', g', hg', hp'⟩ hname
    exact ⟨hI.apart hg hg' hrel.drawn.1 hrel'.drawn.1, rfl⟩
  refine ⟨?_, ?_, hone, ?_, ?_⟩
  · intro n e he
    obtain ⟨hn, r, g, hg, hp⟩ := hI.tokens.own he
    exact ⟨hn, r, releasedBy_of_placed htr hI hg hp⟩
  · intro l e he
    obtain ⟨hl, r, g, hg, hout⟩ := hI.links.own he
    obtain ⟨u, hrel⟩ := releasedBy_of_placed htr hI hg (placed_of_out hout)
    refine ⟨hl, r, u, hrel, ?_⟩
    have hfits := hI.fits hg
    cases hph : g.phase with
    | released u e' =>
        rw [hph] at hout hfits
        obtain rfl := Option.some.inj hout
        rw [htr.log hg]
        exact hfits.2
    | _ =>
        rw [hph] at hout
        cases hout
  · intro r r' u u' e e' call h h' hshow hshow'
    rcases hshow with rfl | ⟨t, rfl⟩
    · rcases hshow' with hcall | ⟨t', hcall⟩
      · exact (hone h h' (.inl (PasswdlessCall.confirm_link.inj hcall))).2
      · cases hcall
    · rcases hshow' with hcall | ⟨t', hcall⟩
      · cases hcall
      · exact (hone h h' (.inr (PasswdlessCall.confirm_token.inj hcall).2)).2
  · intro i v hin
    obtain ⟨g, hg, e, hph, hv⟩ := htr.final hin
    obtain ⟨⟨r, g', hg', hp⟩, hshow⟩ := hI.took hg hph
    obtain ⟨u, call, hcall, hrel⟩ := releasedBy_of_placed htr hI hg' hp
    refine ⟨r, u, e, ⟨call, hcall, hrel⟩, hrel.user.symm.trans hv, ?_⟩
    rcases hshow with hshow | ⟨hshow, -⟩
    · exact .inl ((htr.call hg).trans (congrArg some hshow))
    · exact .inr ((htr.call hg).trans (congrArg some hshow))

/-- A call in the middle of a confirmation was shown what it has taken, and nothing else. -/
theorem Guarded.shown (hI : Guarded cfg.shared gs) {i : Nat} {g : PasswdlessGhost}
    {e e' : FA2Entry} (hg : gs[i]? = some g) (hph : g.phase = .took e') (he : Placed gs e)
    (hname : e'.link = e.link ∨ e'.nonce = e.nonce) : g.call.shows e := by
  obtain ⟨hp, hshow⟩ := hI.took hg hph
  obtain rfl := hI.same hp he hname
  rcases hshow with hshow | ⟨hshow, -⟩
  · exact .inl hshow
  · exact .inr ⟨_, hshow⟩

theorem Passing.leaves_tokens {i : Nat} {ch : Choice} {g : PasswdlessGhost} {o : Op} {r : o.Reply}
    {ph : PasswdlessPhase} {w' : World} (h : Passing c cfg gs i ch g o r ph w')
    (hI : Guarded cfg.shared gs) {n : String} {e : FA2Entry} (he : cfg.shared.tokens n = some e) :
    w'.tokens n = some e ∨ g.call.shows e := by
  obtain ⟨rfl, hp⟩ := hI.tokens.own he
  have hon := on_tokens h.step h.ans
  cases hon with
  | stay hw ho => exact .inl (by rw [hw, he])
  | put hph hph' hw =>
      exact .inl (by rw [hw, Function.update_of_ne (h.unplaced hI hph hp), he])
  | @take k hw hn =>
      by_cases hk : e.nonce = k
      · subst hk
        rcases hn with ⟨t, hcall⟩ | ⟨e', hph, hnonce⟩
        · exact .inr (.inr ⟨t, hcall⟩)
        · exact .inr (hI.shown h.ghost hph hp (.inr hnonce))
      · exact .inl (by rw [hw, Function.update_of_ne hk, he])

theorem Passing.leaves_links {i : Nat} {ch : Choice} {g : PasswdlessGhost} {o : Op} {r : o.Reply}
    {ph : PasswdlessPhase} {w' : World} (h : Passing c cfg gs i ch g o r ph w')
    (hI : Guarded cfg.shared gs) {l : String} {e : FA2Entry} (he : cfg.shared.links l = some e) :
    w'.links l = some e ∨ g.call.shows e := by
  obtain ⟨rfl, hp⟩ := hI.links.own he
  have hon := on_links h.step h.ans
  cases hon with
  | stay hw ho => exact .inl (by rw [hw, he])
  | put hph hph' hw =>
      exact .inl (by rw [hw, Function.update_of_ne (h.unlinked hI hph hp), he])
  | @take k hw hl =>
      by_cases hk : e.link = k
      · subst hk
        rcases hl with hcall | ⟨e', hph, hlink⟩
        · exact .inr (.inl hcall)
        · exact .inr (hI.shown h.ghost hph hp.placed (.inl hlink))
      · exact .inl (by rw [hw, Function.update_of_ne hk, he])

theorem leaves_others_of_guarded (htr : Protocol.Tracked passing cfg gs)
    (hI : Guarded cfg.shared gs) {ev : PasswdlessEvent} {cfg' : PasswdlessConfig}
    (hfresh : draws_new cfg ev = true) (hnext : (passwdless c).next cfg ev = some cfg') :
    LeavesOthers cfg ev cfg' := by
  obtain ⟨gs', hmv, -⟩ := htr.next (passing_follows c) hnext
  generalize hw' : cfg'.shared = w' at hmv
  cases hmv with
  | spawn call => exact ⟨fun he => .inl (by rw [hw', he]), fun he => .inl (by rw [hw', he])⟩
  | step hg hcall hn hans hstep =>
      have hpass : Passing c cfg gs _ _ _ _ _ _ _ := ⟨htr, hg, hn, hans, hstep, hfresh⟩
      refine ⟨fun he => ?_, fun he => ?_⟩
      · rcases hpass.leaves_tokens hI he with hstay | hshow
        · exact .inl (by rw [hw', hstay])
        · exact .inr (.inr ⟨_, _, _, rfl, hcall, hshow⟩)
      · rcases hpass.leaves_links hI he with hstay | hshow
        · exact .inl (by rw [hw', hstay])
        · exact .inr (.inr ⟨_, _, _, rfl, hcall, hshow⟩)
  | env x =>
      refine ⟨fun {n e} he => ?_, fun {l e} he => ?_⟩
      · cases x with
        | token k =>
            by_cases hk : n = k
            · exact .inr (.inl (by rw [hk]))
            · exact .inl (by rw [hw']; exact (Function.update_of_ne hk ..).trans he)
        | _ => exact .inl (by rw [hw']; exact he)
      · cases x with
        | link k =>
            by_cases hk : l = k
            · exact .inr (.inl (by rw [hk]))
            · exact .inl (by rw [hw']; exact (Function.update_of_ne hk ..).trans he)
        | _ => exact .inl (by rw [hw']; exact he)

end Apart

/-- **Challenges do not get in each other's way.** After every run whose draws are new, the caches
hold what `release_pair` put there, confirmations let in whom their challenge was released for, and
whatever comes next leaves the entries of every challenge but the one it is about. -/
theorem challenges_apart (c : Crates) (rows : List Record) (evs : List PasswdlessEvent)
    (cfg : PasswdlessConfig)
    (hdraws : (passwdless c).Along (fun cfg ev => draws_new cfg ev = true) ⟨World.of rows, []⟩ evs)
    (hrun : (passwdless c).run ⟨World.of rows, []⟩ evs = some cfg) :
    ChallengesApart cfg ∧ ∀ ev cfg', draws_new cfg ev = true →
      (passwdless c).next cfg ev = some cfg' → LeavesOthers cfg ev cfg' := by
  obtain ⟨gs, htr, hI⟩ := guarded_run hdraws hrun
  exact ⟨challenges_apart_of_guarded htr hI,
    fun _ _ hfresh hnext => leaves_others_of_guarded htr hI hfresh hnext⟩

/-- Alice asks for two challenges, and a wrong number uses the first one up. -/
def two_challenges : List PasswdlessEvent :=
  wrong_guess ++ [.spawn (.challenge_by_username "alice"), .step 2 .go,
    .step 2 (.bytes (List.replicate 32 3)), .step 2 (.bytes (List.replicate 32 4)),
    .step 2 (.number 654321), .step 2 .go, .step 2 .go, .spawn (.confirm_link (token_of 3))]

theorem challenges_apart_for_alice : ∃ cfg cfg',
    (passwdless sample_crates).run ⟨World.of sample_rows, []⟩ two_challenges = some cfg ∧
    (passwdless sample_crates).next cfg (.step 3 .go) = some cfg' ∧ ChallengesApart cfg ∧
    LeavesOthers cfg (.step 3 .go) cfg' ∧ cfg'.shared.links (token_of 1) = some sample_entry := by
  have hapart := challenges_apart sample_crates sample_rows two_challenges _ (by decide) rfl
  exact ⟨_, _, rfl, rfl, hapart.1, hapart.2 (.step 3 .go) _ rfl rfl, rfl⟩

end Authnz
