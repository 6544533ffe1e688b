/-
Passwordless challenges under concurrency.

A challenge lies in two caches, and each form of confirmation first removes the
entry of its own cache and then the other one.  Between the two removals the other
form still finds its entry: `both_forms_confirmed` is such a schedule, with two
calls returning `Ok` for one challenge.

What does hold is `challenge_single_use`.  As long as no confirmation takes an entry
while a call of the other form, or `release_pair` itself, is between its two cache
operations on the same challenge, at most one call returns `Ok`.  The invariant says
of each challenge who has taken an entry of it, and what is left in the caches then.
-/
import Authnz.Model.Concurrent
import Authnz.Model.Passwdless
import Authnz.Model.Sample

namespace Authnz

open Basis

/-- The calls that touch challenges. -/
inductive ChallengeCall where
  | release (email : Uuid)
  | confirm_link (token : String)
  | confirm_token (token : Nat) (nonce : String)
  deriving DecidableEq

inductive ChallengeResult where
  | released (c : ChallengeRequested)
  | confirmed (r : Except PasswdlessError Uuid)

def ChallengeCall.code : ChallengeCall → Handler ChallengeResult
  | .release email => do return .released (← PasswdlessService.release_pair email)
  | .confirm_link token => do return .confirmed (← (PasswdlessService.confirm_link token).run)
  | .confirm_token token nonce => do
      return .confirmed (← (PasswdlessService.confirm_token token nonce).run)

/-- Any number of these calls at once; the caches may drop entries at any time. -/
abbrev challenges (c : Crates) :
    System Op Op.Reply Choice World ChallengeCall Expiry ChallengeResult :=
  service c ChallengeCall.code

abbrev ChallengeConfig : Type := Config Op Op.Reply World ChallengeCall ChallengeResult

/-- Call `i` confirms the challenge, in either form. -/
def Presents (cfg : ChallengeConfig) (ch : ChallengeRequested) (i : Nat) : Prop :=
  cfg.call i = some (.confirm_link ch.link) ∨ ∃ t, cfg.call i = some (.confirm_token t ch.nonce)

/-- Call `i` has returned `Ok`. -/
def Confirmed (cfg : ChallengeConfig) (i : Nat) : Prop :=
  ∃ u, cfg.result i = some (.confirmed (.ok u))

/-- Of the calls that present one released challenge, at most one returns `Ok`. -/
def SingleUse (cfg : ChallengeConfig) : Prop :=
  ∀ r ch, cfg.result r = some (.released ch) → ∀ i j, Presents cfg ch i → Presents cfg ch j →
    Confirmed cfg i → Confirmed cfg j → i = j

/-! ### What is assumed of the random numbers, and when the caches serve a challenge once -/

/-- Nobody has used this text: not a cache, not a draw, not a caller. -/
def unseen (cfg : ChallengeConfig) (s : String) : Bool :=
  (cfg.shared.links s).isNone && (cfg.shared.tokens s).isNone &&
    cfg.threads.all fun th => !(drawn_tokens th.log).contains s &&
      match th.call with
      | .release _ => true
      | .confirm_link token => token != s
      | .confirm_token _ nonce => nonce != s

/-- 256 random bits are not a text that is around already. -/
def draws_unseen (cfg : ChallengeConfig) (ev : Basis.Event Choice ChallengeCall Expiry) : Bool :=
  match ev with
  | .step i (.bytes bytes) =>
      match cfg.next i with
      | some (.fill _) => unseen cfg (base64url bytes)
      | _ => true
  | _ => true

/-- A confirmation about to remove the link entry as its second step. -/
def leaves_link (link : String) : ChallengeCall → Op → Bool
  | .confirm_token _ _, .links_remove l => l == link
  | _, _ => false

/-- A confirmation about to remove the nonce entry as its second step. -/
def leaves_nonce (nonce : String) : ChallengeCall → Op → Bool
  | .confirm_link _, .tokens_remove n => n == nonce
  | _, _ => false

/-- A `release_pair` about to insert the link entry as its second step. -/
def brings_link (link : String) : ChallengeCall → Op → Bool
  | .release _, .links_insert l _ => l == link
  | _, _ => false

/-- A confirmation takes its entry only when no call of the other form, and no `release_pair`,
is between its two operations on that challenge. -/
def undisturbed (cfg : ChallengeConfig) (ev : Basis.Event Choice ChallengeCall Expiry) : Bool :=
  match ev with
  | .step i _ =>
      match cfg.call i, cfg.next i with
      | some (.confirm_link _), some (.links_remove l) =>
          (cfg.shared.links l).all fun e => nobody_about cfg (leaves_link e.link)
      | some (.confirm_token otp _), some (.tokens_remove n) =>
          (cfg.shared.tokens n).all fun e => e.token != otp ||
            nobody_about cfg (leaves_nonce e.nonce) && nobody_about cfg (brings_link e.link)
      | _, _ => true
  | _ => true

/-! ### The calls, in phases -/

inductive ChallengePhase where
  | start
  | linked (link : String)
  | named (link nonce : String)
  | ready (e : FA2Entry)
  | half (e : FA2Entry)
  | released (e : FA2Entry)
  /-- The first entry of the challenge is taken. -/
  | took (e : FA2Entry)
  | won (e : FA2Entry)
  | lost

inductive ChallengeStep :
    ChallengeCall → ChallengePhase → (o : Op) → o.Reply → ChallengePhase → Prop
  | draw_link {email : Uuid} {bytes : List UInt8} :
      ChallengeStep (.release email) .start (.fill 32) bytes (.linked (base64url bytes))
  | draw_nonce {email : Uuid} {link : String} {bytes : List UInt8} :
      ChallengeStep (.release email) (.linked link) (.fill 32) bytes
        (.named link (base64url bytes))
  | draw_otp {email : Uuid} {link nonce : String} {token : Nat} :
      ChallengeStep (.release email) (.named link nonce) (.random_range 100000 999999) token
        (.ready { link, token, email, nonce })
  | put_nonce {email : Uuid} {e : FA2Entry} :
      ChallengeStep (.release email) (.ready e) (.tokens_insert e.nonce e) () (.half e)
  | put_link {email : Uuid} {e : FA2Entry} :
      ChallengeStep (.release email) (.half e) (.links_insert e.link e) () (.released e)
  | link_gone {token : String} :
      ChallengeStep (.confirm_link token) .start (.links_remove token) none .lost
  | link_taken {token : String} {e : FA2Entry} :
      ChallengeStep (.confirm_link token) .start (.links_remove token) (some e) (.took e)
  | link_won {token : String} {e : FA2Entry} {r : Option FA2Entry} :
      ChallengeStep (.confirm_link token) (.took e) (.tokens_remove e.nonce) r (.won e)
  | nonce_gone {token : Nat} {nonce : String} :
      ChallengeStep (.confirm_token token nonce) .start (.tokens_remove nonce) none .lost
  | nonce_wrong {token : Nat} {nonce : String} {e : FA2Entry} (h : e.token ≠ token) :
      ChallengeStep (.confirm_token token nonce) .start (.tokens_remove nonce) (some e) .lost
  | nonce_taken {token : Nat} {nonce : String} {e : FA2Entry} (h : e.token = token) :
      ChallengeStep (.confirm_token token nonce) .start (.tokens_remove nonce) (some e) (.took e)
  | nonce_won {token : Nat} {nonce : String} {e : FA2Entry} {r : Option FA2Entry} :
      ChallengeStep (.confirm_token token nonce) (.took e) (.links_remove e.link) r (.won e)

/-- Releasing and confirming a challenge, as a protocol. -/
abbrev challenging : Protocol Op Op.Reply ChallengeCall ChallengeResult where
  Phase := ChallengePhase
  start _ := .start
  Step := ChallengeStep
  Final _ ph
    | .released ch => ∃ e, ph = .released e ∧ ch = ⟨e.token, e.link, e.nonce⟩
    | .confirmed (.ok _) => ∃ e, ph = .won e
    | .confirmed (.error _) => ph = .lost

theorem challenging_follows (c : Crates) (call : ChallengeCall) :
    challenging.Follows call ((challenges c).code call) := by
  cases call with
  | release email =>
      intro link
      refine ⟨_, .draw_link, ?_⟩
      intro nonce
      refine ⟨_, .draw_nonce, ?_⟩
      intro token
      refine ⟨_, .draw_otp, ?_⟩
      intro _
      refine ⟨_, .put_nonce, ?_⟩
      intro _
      exact ⟨_, .put_link, _, rfl, rfl⟩
  | confirm_link token =>
      intro got
      cases got with
      | none => exact ⟨_, .link_gone, rfl⟩
      | some e =>
          refine ⟨_, .link_taken, ?_⟩
          intro _
          exact ⟨_, .link_won, _, rfl⟩
  | confirm_token token nonce =>
      intro got
      cases got with
      | none => exact ⟨_, .nonce_gone, rfl⟩
      | some e =>
          by_cases h : e.token = token
          · refine ⟨_, .nonce_taken h, ?_⟩
            simp only [Prog.bind, Function.comp, ExceptT.bindCont, ne_eq, h, not_true_eq_false,
              if_false]
            intro _
            exact ⟨_, .nonce_won, _, rfl⟩
          · refine ⟨_, .nonce_wrong h, ?_⟩
            simp only [Prog.bind, Function.comp, ExceptT.bindCont, ne_eq, h, not_false_eq_true,
              if_true]
            rfl

/-! ### What one step does -/

namespace ChallengePhase

/-- The entry a confirmation has taken. -/
def taken : ChallengePhase → Option FA2Entry
  | .took e => some e
  | .won e => some e
  | _ => none

/-- The link `release_pair` has drawn. -/
def link : ChallengePhase → Option String
  | .linked link => some link
  | .named link _ => some link
  | .ready e => some e.link
  | .half e => some e.link
  | .released e => some e.link
  | _ => none

/-- The nonce it has drawn. -/
def nonce : ChallengePhase → Option String
  | .named _ nonce => some nonce
  | .ready e => some e.nonce
  | .half e => some e.nonce
  | .released e => some e.nonce
  | _ => none

end ChallengePhase

section Step

variable {c : Crates} {call : ChallengeCall} {ph ph' : ChallengePhase} {o : Op} {r : o.Reply}
  {me : Nat} {ch : Choice} {w w' : World}

/-- A link entry only appears by the last step of its `release_pair`. -/
theorem step_links (h : ChallengeStep call ph o r ph')
    (hans : World.answer c me o ch w = some (w', r)) (l : String) :
    w'.links l = w.links l ∨ w'.links l = none ∨
      ∃ e, ph = .half e ∧ e.link = l ∧ ph' = .released e ∧ w'.links l = some e ∧
        w'.tokens = w.tokens := by
  cases h with
  | draw_link | draw_nonce => exact .inl (by rw [(World.answer_fill hans).2])
  | draw_otp => exact .inl (by rw [World.answer_idle hans trivial])
  | put_nonce => exact .inl (by rw [World.answer_tokens_insert hans])
  | @put_link email e =>
      rw [World.answer_links_insert hans]
      by_cases hl : l = e.link
      · subst hl
        exact .inr (.inr ⟨e, rfl, rfl, rfl, by simp, rfl⟩)
      · exact .inl (by simp [hl])
  | link_gone | link_taken | nonce_won =>
      rw [(World.answer_links_remove hans).1]
      simp only [Function.update_apply]
      split
      · exact .inr (.inl rfl)
      · exact .inl rfl
  | link_won | nonce_gone | nonce_wrong | nonce_taken =>
      exact .inl (by rw [(World.answer_tokens_remove hans).1])

/-- A nonce entry only appears by the first insertion of its `release_pair`. -/
theorem step_tokens (h : ChallengeStep call ph o r ph')
    (hans : World.answer c me o ch w = some (w', r)) (n : String) :
    w'.tokens n = w.tokens n ∨ w'.tokens n = none ∨
      ∃ e, ph = .ready e ∧ e.nonce = n ∧ ph' = .half e ∧ w'.tokens n = some e ∧
        w'.links = w.links := by
  cases h with
  | draw_link | draw_nonce => exact .inl (by rw [(World.answer_fill hans).2])
  | draw_otp => exact .inl (by rw [World.answer_idle hans trivial])
  | put_link => exact .inl (by rw [World.answer_links_insert hans])
  | @put_nonce email e =>
      rw [World.answer_tokens_insert hans]
      by_cases hn : n = e.nonce
      · subst hn
        exact .inr (.inr ⟨e, rfl, rfl, rfl, by simp, rfl⟩)
      · exact .inl (by simp [hn])
  | link_won | nonce_gone | nonce_wrong | nonce_taken =>
      rw [(World.answer_tokens_remove hans).1]
      simp only [Function.update_apply]
      split
      · exact .inr (.inl rfl)
      · exact .inl rfl
  | link_gone | link_taken | nonce_won =>
      exact .inl (by rw [(World.answer_links_remove hans).1])

/-- A confirmation takes an entry by the first of its removals; by the second, both are gone. -/
theorem step_taken {e : FA2Entry} (h : ChallengeStep call ph o r ph')
    (hans : World.answer c me o ch w = some (w', r)) (ht : ph'.taken = some e) :
    (∃ l, call = .confirm_link l ∧ o = .links_remove l ∧ w.links l = some e ∧ ph = .start ∧
        ph' = .took e ∧ w'.links l = none ∧ w'.tokens = w.tokens) ∨
      (∃ n, call = .confirm_token e.token n ∧ o = .tokens_remove n ∧ w.tokens n = some e ∧
        ph = .start ∧ ph' = .took e ∧ w'.tokens n = none ∧ w'.links = w.links) ∨
      (∃ l, call = .confirm_link l ∧ ph = .took e ∧ ph' = .won e ∧
        w'.tokens e.nonce = none ∧ w'.links = w.links) ∨
      ∃ t n, call = .confirm_token t n ∧ ph = .took e ∧ ph' = .won e ∧
        w'.links e.link = none ∧ w'.tokens = w.tokens := by
  cases h with
  | @link_taken l e' =>
      obtain rfl : e' = e := Option.some.inj ht
      obtain ⟨rfl, hr⟩ := World.answer_links_remove hans
      exact .inl ⟨l, rfl, rfl, hr.symm, rfl, rfl, by simp, rfl⟩
  | @nonce_taken t n e' htok =>
      obtain rfl : e' = e := Option.some.inj ht
      obtain ⟨rfl, hr⟩ := World.answer_tokens_remove hans
      exact .inr (.inl ⟨n, by rw [htok], rfl, hr.symm, rfl, rfl, by simp, rfl⟩)
  | @link_won l e' =>
      obtain rfl : e' = e := Option.some.inj ht
      obtain ⟨rfl, -⟩ := World.answer_tokens_remove hans
      exact .inr (.inr (.inl ⟨l, rfl, rfl, rfl, by simp, rfl⟩))
  | @nonce_won t n e' =>
      obtain rfl : e' = e := Option.some.inj ht
      obtain ⟨rfl, -⟩ := World.answer_links_remove hans
      exact .inr (.inr (.inr ⟨t, n, rfl, rfl, rfl, by simp, rfl⟩))
  | _ => cases ht

theorem step_link {l : String} (h : ChallengeStep call ph o r ph')
    (hans : World.answer c me o ch w = some (w', r)) (hl : ph'.link = some l) :
    ph.link = some l ∨ ∃ bytes, o = .fill 32 ∧ ch = .bytes bytes ∧ base64url bytes = l ∧
      ph' = .linked l ∧ w' = w := by
  cases h with
  | draw_link =>
      obtain ⟨hch, hw⟩ := World.answer_fill hans
      obtain rfl := Option.some.inj hl
      exact .inr ⟨_, rfl, hch, rfl, rfl, hw⟩
  | draw_nonce | draw_otp | put_nonce | put_link => exact .inl hl
  | _ => cases hl

theorem step_nonce {n : String} (h : ChallengeStep call ph o r ph')
    (hans : World.answer c me o ch w = some (w', r)) (hn : ph'.nonce = some n) :
    ph.nonce = some n ∨ ∃ bytes l, o = .fill 32 ∧ ch = .bytes bytes ∧ base64url bytes = n ∧
      ph = .linked l ∧ ph' = .named l n ∧ w' = w := by
  cases h with
  | draw_nonce =>
      obtain ⟨hch, hw⟩ := World.answer_fill hans
      obtain rfl := Option.some.inj hn
      exact .inr ⟨_, _, rfl, hch, rfl, rfl, rfl, hw⟩
  | draw_otp | put_nonce | put_link => exact .inl hn
  | _ => cases hn

end Step

/-! ### The invariant -/

section Invariant

abbrev ChallengeGhost : Type := challenging.Ghost

/-- The call presents the challenge `e`. -/
def Shows (e : FA2Entry) (call : ChallengeCall) : Prop :=
  call = .confirm_link e.link ∨ ∃ t, call = .confirm_token t e.nonce

/-- The link is not in the cache yet, and nobody has taken it. -/
structure LinkUnused (w : World) (gs : List ChallengeGhost) (l : String) : Prop where
  cache : w.links l = none
  untaken : ∀ {i : Nat} {g : ChallengeGhost}, gs[i]? = some g → g.call = .confirm_link l →
    g.phase.taken = none

/-- Nobody has taken the nonce, and the cache has at most the entry `x` under it. -/
structure NonceUnused (w : World) (gs : List ChallengeGhost) (n : String)
    (x : Option FA2Entry) : Prop where
  cache : ∀ {e : FA2Entry}, w.tokens n = some e → x = some e
  untaken : ∀ {i : Nat} {g : ChallengeGhost} {t : Nat}, gs[i]? = some g →
    g.call = .confirm_token t n → g.phase.taken = none

/-- A released challenge: who has taken an entry of it, and what the caches hold then. -/
structure Settled (w : World) (gs : List ChallengeGhost) (e : FA2Entry) : Prop where
  links : ∀ {e' : FA2Entry}, w.links e.link = some e' → e' = e
  tokens : ∀ {e' : FA2Entry}, w.tokens e.nonce = some e' → e' = e
  entry : ∀ {i : Nat} {g : ChallengeGhost} {e' : FA2Entry}, gs[i]? = some g → Shows e g.call →
    g.phase.taken = some e' → e' = e
  link_taken : ∀ {i : Nat} {g : ChallengeGhost} {e' : FA2Entry}, gs[i]? = some g →
    g.call = .confirm_link e.link → g.phase.taken = some e' → w.links e.link = none
  nonce_taken : ∀ {i : Nat} {g : ChallengeGhost} {t : Nat} {e' : FA2Entry}, gs[i]? = some g →
    g.call = .confirm_token t e.nonce → g.phase.taken = some e' → w.tokens e.nonce = none
  won : ∀ {i : Nat} {g : ChallengeGhost} {e' : FA2Entry}, gs[i]? = some g → Shows e g.call →
    g.phase = .won e' → w.links e.link = none ∧ w.tokens e.nonce = none
  unique : ∀ {i j : Nat} {gi gj : ChallengeGhost} {ei ej : FA2Entry}, gs[i]? = some gi →
    gs[j]? = some gj → Shows e gi.call → Shows e gj.call → gi.phase.taken = some ei →
    gj.phase.taken = some ej → i = j

/-- What the phase of a `release_pair` says about its challenge. -/
def Standing (w : World) (gs : List ChallengeGhost) : ChallengePhase → Prop
  | .linked l => LinkUnused w gs l
  | .named l n => LinkUnused w gs l ∧ NonceUnused w gs n none
  | .ready e => LinkUnused w gs e.link ∧ NonceUnused w gs e.nonce none
  | .half e => LinkUnused w gs e.link ∧ NonceUnused w gs e.nonce (some e)
  | .released e => Settled w gs e
  | _ => True

/-- Every challenge stands, and no two have a name in common. -/
structure ChallengesKept (w : World) (gs : List ChallengeGhost) : Prop where
  drawn : ∀ {r : Nat} {g : ChallengeGhost} {s : String}, gs[r]? = some g →
    g.phase.link = some s ∨ g.phase.nonce = some s → s ∈ drawn_tokens g.log
  links : ∀ {r r' : Nat} {g g' : ChallengeGhost} {l : String}, gs[r]? = some g →
    gs[r']? = some g' → g.phase.link = some l → g'.phase.link = some l → r = r'
  nonces : ∀ {r r' : Nat} {g g' : ChallengeGhost} {n : String}, gs[r]? = some g →
    gs[r']? = some g' → g.phase.nonce = some n → g'.phase.nonce = some n → r = r'
  standing : ∀ {r : Nat} {g : ChallengeGhost}, gs[r]? = some g → Standing w gs g.phase

/-- One call's step, with everything known about it. -/
structure Stepping (cfg : ChallengeConfig) (gs : List ChallengeGhost) (i : Nat) (ch : Choice)
    (g : ChallengeGhost) (o : Op) (r : o.Reply) (ph : ChallengePhase) (w' : World) : Prop where
  tracked : Protocol.Tracked challenging cfg gs
  ghost : gs[i]? = some g
  next : cfg.next i = some o
  ans : ∃ c, World.answer c i o ch cfg.shared = some (w', r)
  step : ChallengeStep g.call g.phase o r ph
  fresh : draws_unseen cfg (.step i ch) = true
  alone : undisturbed cfg (.step i ch) = true

variable {cfg : ChallengeConfig} {gs : List ChallengeGhost} {i : Nat} {ch : Choice}
  {g : ChallengeGhost} {o : Op} {r : o.Reply} {ph : ChallengePhase} {w' : World}

/-- The ghosts after the step. -/
abbrev stepped (gs : List ChallengeGhost) (i : Nat) (g : ChallengeGhost) (o : Op)
    (r : o.Reply) (ph : ChallengePhase) : List ChallengeGhost :=
  gs.set i ⟨g.call, ⟨o, r⟩ :: g.log, ph⟩

namespace Stepping

/-- Another call's link stays as it is or leaves the cache. -/
theorem link_of_other (h : Stepping cfg gs i ch g o r ph w') (hI : ChallengesKept cfg.shared gs)
    {j : Nat} {gj : ChallengeGhost} (hj : gs[j]? = some gj) (hne : j ≠ i) {l : String}
    (hl : gj.phase.link = some l) : w'.links l = cfg.shared.links l ∨ w'.links l = none := by
  obtain ⟨c, hans⟩ := h.ans
  rcases step_links h.step hans l with hl' | hl' | ⟨e, hph, rfl, -⟩
  · exact .inl hl'
  · exact .inr hl'
  · exact absurd (hI.links hj h.ghost hl (by rw [hph]; rfl)) hne

theorem token_of_other (h : Stepping cfg gs i ch g o r ph w') (hI : ChallengesKept cfg.shared gs)
    {j : Nat} {gj : ChallengeGhost} (hj : gs[j]? = some gj) (hne : j ≠ i) {n : String}
    (hn : gj.phase.nonce = some n) : w'.tokens n = cfg.shared.tokens n ∨ w'.tokens n = none := by
  obtain ⟨c, hans⟩ := h.ans
  rcases step_tokens h.step hans n with hn' | hn' | ⟨e, hph, rfl, -⟩
  · exact .inl hn'
  · exact .inr hn'
  · exact absurd (hI.nonces hj h.ghost hn (by rw [hph]; rfl)) hne

/-- A confirmation by link takes the entry only while no other form is at work. -/
theorem link_first (h : Stepping cfg gs i ch g o r ph w') {l : String} {e : FA2Entry}
    (hcall : g.call = .confirm_link l) (ho : o = .links_remove l)
    (hl : cfg.shared.links l = some e) : nobody_about cfg (leaves_link e.link) = true := by
  have hu := h.alone
  have hc := h.tracked.call h.ghost
  rw [hcall] at hc
  have hn := h.next
  rw [ho] at hn
  simpa [undisturbed, hc, hn, hl] using hu

theorem nonce_first (h : Stepping cfg gs i ch g o r ph w') {n : String} {e : FA2Entry}
    (hcall : g.call = .confirm_token e.token n) (ho : o = .tokens_remove n)
    (hn : cfg.shared.tokens n = some e) :
    nobody_about cfg (leaves_nonce e.nonce) = true ∧
      nobody_about cfg (brings_link e.link) = true := by
  have hu := h.alone
  have hc := h.tracked.call h.ghost
  rw [hcall] at hc
  have hnext := h.next
  rw [ho] at hnext
  simpa [undisturbed, hc, hnext, hn] using hu

end Stepping

/-! ### Where a call in the middle of its two operations stands -/

section Middle

variable {k : Nat} {gk : ChallengeGhost} {e : FA2Entry}

/-- A call that has not returned is about to carry out its next operation. -/
theorem about_to (htr : Protocol.Tracked challenging cfg gs) (hk : gs[k]? = some gk)
    (hph : gk.phase = .half e ∨ gk.phase = .took e) {p : ChallengeCall → Op → Bool}
    (hp : ∀ o r ph, ChallengeStep gk.call gk.phase o r ph → p gk.call o = true) :
    nobody_about cfg p ≠ true := by
  obtain ⟨th, hth, hcall, o, r, ph, hnext, hstep⟩ := htr.asking hk (by
    intro a hfinal
    rcases hph with hph | hph <;> rw [hph] at hfinal <;>
      rcases a with ch | ⟨_ | _⟩ <;> simp at hfinal)
  intro hall
  have hfalse := nobody_about_iff.mp hall th hth o hnext
  rw [hcall, hp o r ph hstep] at hfalse
  cases hfalse

theorem half_brings (htr : Protocol.Tracked challenging cfg gs) (hk : gs[k]? = some gk)
    (hph : gk.phase = .half e) : nobody_about cfg (brings_link e.link) ≠ true := by
  refine about_to htr hk (.inl hph) fun o r ph hstep => ?_
  rw [hph] at hstep
  generalize gk.call = call at hstep ⊢
  cases hstep
  simp [brings_link]

theorem took_link_leaves (htr : Protocol.Tracked challenging cfg gs) (hk : gs[k]? = some gk)
    {l : String} (hcall : gk.call = .confirm_link l) (hph : gk.phase = .took e) :
    nobody_about cfg (leaves_nonce e.nonce) ≠ true := by
  refine about_to htr hk (.inr hph) fun o r ph hstep => ?_
  rw [hph, hcall] at hstep
  rw [hcall]
  cases hstep
  simp [leaves_nonce]

theorem took_token_leaves (htr : Protocol.Tracked challenging cfg gs) (hk : gs[k]? = some gk)
    {t : Nat} {n : String} (hcall : gk.call = .confirm_token t n) (hph : gk.phase = .took e) :
    nobody_about cfg (leaves_link e.link) ≠ true := by
  refine about_to htr hk (.inr hph) fun o r ph hstep => ?_
  rw [hph, hcall] at hstep
  rw [hcall]
  cases hstep
  simp [leaves_link]

end Middle

namespace Stepping

/-! ### What the step preserves -/

theorem link_untaken (h : Stepping cfg gs i ch g o r ph w') {l : String}
    (hu : LinkUnused cfg.shared gs l) {j : Nat} {x : ChallengeGhost}
    (hj : (stepped gs i g o r ph)[j]? = some x) (hx : x.call = .confirm_link l) :
    x.phase.taken = none := by
  rcases get_set_cases hj with ⟨rfl, rfl⟩ | ⟨-, hj⟩
  · by_contra hne
    obtain ⟨e, he⟩ := Option.ne_none_iff_exists'.mp hne
    obtain ⟨c, hans⟩ := h.ans
    have hnone := hu.untaken h.ghost hx
    rcases step_taken h.step hans he with ⟨l', hc, -, hl, -⟩ | ⟨n, hc, -⟩ | ⟨l', -, hph, -⟩ |
      ⟨t, n, hc, -⟩
    · obtain rfl : l' = l := by simpa using hc.symm.trans hx
      rw [hu.cache] at hl
      cases hl
    · exact absurd (hc.symm.trans hx) (by simp)
    · rw [hph] at hnone
      cases hnone
    · exact absurd (hc.symm.trans hx) (by simp)
  · exact hu.untaken hj hx

theorem nonce_untaken (h : Stepping cfg gs i ch g o r ph w') {n : String} {x₀ : Option FA2Entry}
    (hu : NonceUnused cfg.shared gs n x₀)
    (hhalf : ∀ e, x₀ = some e → nobody_about cfg (brings_link e.link) ≠ true) {j t : Nat}
    {x : ChallengeGhost} (hj : (stepped gs i g o r ph)[j]? = some x)
    (hx : x.call = .confirm_token t n) : x.phase.taken = none := by
  rcases get_set_cases hj with ⟨rfl, rfl⟩ | ⟨-, hj⟩
  · by_contra hne
    obtain ⟨e, he⟩ := Option.ne_none_iff_exists'.mp hne
    obtain ⟨c, hans⟩ := h.ans
    have hnone := hu.untaken h.ghost hx
    rcases step_taken h.step hans he with ⟨l, hc, -⟩ | ⟨n', hc, ho, hn, -⟩ | ⟨l, hc, -⟩ |
      ⟨t', n', -, hph, -⟩
    · exact absurd (hc.symm.trans hx) (by simp)
    · obtain ⟨-, rfl⟩ : e.token = t ∧ n' = n := by simpa using hc.symm.trans hx
      exact hhalf e (hu.cache hn) (h.nonce_first hc ho hn).2
    · exact absurd (hc.symm.trans hx) (by simp)
    · rw [hph] at hnone
      cases hnone
  · exact hu.untaken hj hx

/-- Whoever takes an entry first is alone on the challenge. -/
theorem first_alone (h : Stepping cfg gs i ch g o r ph w') {e : FA2Entry}
    (hs : Settled cfg.shared gs e) (hshow : Shows e g.call) (hstart : g.phase = .start)
    {e' : FA2Entry} (ht : ph.taken = some e') {j : Nat} {gj : ChallengeGhost}
    (hj : gs[j]? = some gj) (hshowj : Shows e gj.call) : gj.phase.taken = none := by
  by_contra hne
  obtain ⟨e₂, he₂⟩ := Option.ne_none_iff_exists'.mp hne
  obtain rfl : e₂ = e := hs.entry hj hshowj he₂
  obtain ⟨c, hans⟩ := h.ans
  -- the entry is still in the cache, so whoever has it came by the other form and is not done
  rcases step_taken h.step hans ht with ⟨l, hc, ho, hl, -⟩ | ⟨n, hc, ho, hn, -⟩ | ⟨l, -, hph, -⟩ |
    ⟨t, n, -, hph, -⟩
  · obtain rfl : l = e₂.link := by
      rcases hshow with hc' | ⟨t, hc'⟩
      · simpa using hc.symm.trans hc'
      · exact absurd (hc.symm.trans hc') (by simp)
    obtain rfl : e' = e₂ := hs.links hl
    rcases hshowj with hcj | ⟨t, hcj⟩
    · rw [hs.link_taken hj hcj he₂] at hl
      cases hl
    · cases hphj : gj.phase with
      | took e₃ =>
          obtain rfl : e₃ = e' := by simpa [hphj, ChallengePhase.taken] using he₂
          exact took_token_leaves h.tracked hj hcj hphj (h.link_first hc ho hl)
      | won e₃ =>
          rw [(hs.won hj (.inr ⟨t, hcj⟩) hphj).1] at hl
          cases hl
      | _ => simp [hphj, ChallengePhase.taken] at he₂
  · obtain rfl : n = e₂.nonce := by
      rcases hshow with hc' | ⟨t, hc'⟩
      · exact absurd (hc.symm.trans hc') (by simp)
      · have := hc.symm.trans hc'
        simp only [ChallengeCall.confirm_token.injEq] at this
        exact this.2
    obtain rfl : e' = e₂ := hs.tokens hn
    rcases hshowj with hcj | ⟨t, hcj⟩
    · cases hphj : gj.phase with
      | took e₃ =>
          obtain rfl : e₃ = e' := by simpa [hphj, ChallengePhase.taken] using he₂
          exact took_link_leaves h.tracked hj hcj hphj (h.nonce_first hc ho hn).1
      | won e₃ =>
          rw [(hs.won hj (.inl hcj) hphj).2] at hn
          cases hn
      | _ => simp [hphj, ChallengePhase.taken] at he₂
    · rw [hs.nonce_taken hj hcj he₂] at hn
      cases hn
  · rw [hstart] at hph
    cases hph
  · rw [hstart] at hph
    cases hph

/-- The step changes the caches under the challenge's names only by removing. -/
structure Shrinks (w w' : World) (e : FA2Entry) : Prop where
  links : w'.links e.link = w.links e.link ∨ w'.links e.link = none
  tokens : w'.tokens e.nonce = w.tokens e.nonce ∨ w'.tokens e.nonce = none

theorem Shrinks.links_none {w w' : World} {e : FA2Entry} (h : Shrinks w w' e)
    (hl : w.links e.link = none) : w'.links e.link = none := by
  rcases h.links with hl' | hl'
  · rw [hl', hl]
  · exact hl'

theorem Shrinks.tokens_none {w w' : World} {e : FA2Entry} (h : Shrinks w w' e)
    (hn : w.tokens e.nonce = none) : w'.tokens e.nonce = none := by
  rcases h.tokens with hn' | hn'
  · rw [hn', hn]
  · exact hn'

theorem Shrinks.links_some {w w' : World} {e e' : FA2Entry} (h : Shrinks w w' e)
    (hl : w'.links e.link = some e') : w.links e.link = some e' := by
  rcases h.links with hl' | hl'
  · rw [← hl', hl]
  · rw [hl'] at hl
    cases hl

theorem Shrinks.tokens_some {w w' : World} {e e' : FA2Entry} (h : Shrinks w w' e)
    (hn : w'.tokens e.nonce = some e') : w.tokens e.nonce = some e' := by
  rcases h.tokens with hn' | hn'
  · rw [← hn', hn]
  · rw [hn'] at hn
    cases hn

theorem settled (h : Stepping cfg gs i ch g o r ph w') {e : FA2Entry}
    (hs : Settled cfg.shared gs e) (hw : Shrinks cfg.shared w' e) :
    Settled w' (stepped gs i g o r ph) e := by
  obtain ⟨c, hans⟩ := h.ans
  -- what the step itself makes of its caller, when that presents the challenge
  have hentry : ∀ {e'}, Shows e g.call → ph.taken = some e' → e' = e := by
    intro e' hshow ht
    rcases step_taken h.step hans ht with ⟨l, hc, -, hl, -⟩ | ⟨n, hc, -, hn, -⟩ | ⟨l, -, hph, -⟩ |
      ⟨t, n, -, hph, -⟩
    · rcases hshow with hc' | ⟨t, hc'⟩
      · obtain rfl : l = e.link := by simpa using hc.symm.trans hc'
        exact hs.links hl
      · exact absurd (hc.symm.trans hc') (by simp)
    · rcases hshow with hc' | ⟨t, hc'⟩
      · exact absurd (hc.symm.trans hc') (by simp)
      · obtain ⟨-, rfl⟩ : e'.token = t ∧ n = e.nonce := by simpa using hc.symm.trans hc'
        exact hs.tokens hn
    · exact hs.entry h.ghost hshow (by rw [hph]; rfl)
    · exact hs.entry h.ghost hshow (by rw [hph]; rfl)
  refine ⟨fun hl => hs.links (hw.links_some hl), fun hn => hs.tokens (hw.tokens_some hn),
    ?_, ?_, ?_, ?_, ?_⟩
  · intro j x e' hj hshow ht
    rcases get_set_cases hj with ⟨rfl, rfl⟩ | ⟨-, hj⟩
    · exact hentry hshow ht
    · exact hs.entry hj hshow ht
  · intro j x e' hj hc ht
    rcases get_set_cases hj with ⟨rfl, rfl⟩ | ⟨-, hj⟩
    · rcases step_taken h.step hans ht with ⟨l, hc', -, -, -, -, hl, -⟩ | ⟨n, hc', -⟩ |
        ⟨l, -, hph, -⟩ | ⟨t, n, hc', -⟩
      · obtain rfl : l = e.link := by simpa using hc'.symm.trans hc
        exact hl
      · exact absurd (hc'.symm.trans hc) (by simp)
      · exact hw.links_none (hs.link_taken h.ghost hc (by rw [hph]; rfl))
      · exact absurd (hc'.symm.trans hc) (by simp)
    · exact hw.links_none (hs.link_taken hj hc ht)
  · intro j x t e' hj hc ht
    rcases get_set_cases hj with ⟨rfl, rfl⟩ | ⟨-, hj⟩
    · rcases step_taken h.step hans ht with ⟨l, hc', -⟩ | ⟨n, hc', -, -, -, -, hn, -⟩ |
        ⟨l, hc', -⟩ | ⟨t', n, -, hph, -⟩
      · exact absurd (hc'.symm.trans hc) (by simp)
      · obtain ⟨-, rfl⟩ : e'.token = t ∧ n = e.nonce := by simpa using hc'.symm.trans hc
        exact hn
      · exact absurd (hc'.symm.trans hc) (by simp)
      · exact hw.tokens_none (hs.nonce_taken h.ghost hc (by rw [hph]; rfl))
    · exact hw.tokens_none (hs.nonce_taken hj hc ht)
  · intro j x e' hj hshow hph'
    rcases get_set_cases hj with ⟨rfl, rfl⟩ | ⟨-, hj⟩
    · have ht : ph.taken = some e' := by
        rw [show ph = .won e' from hph']
        rfl
      obtain rfl : e' = e := hentry hshow ht
      rcases step_taken h.step hans ht with ⟨l, -, -, -, -, hph, -⟩ |
        ⟨n, -, -, -, -, hph, -⟩ | ⟨l, hc, hph, -, hn, hl⟩ | ⟨t, n, hc, hph, -, hl, hn⟩
      · exact absurd (hph.symm.trans hph') (by simp)
      · exact absurd (hph.symm.trans hph') (by simp)
      · rcases hshow with hc' | ⟨t, hc'⟩
        · exact ⟨hw.links_none (hs.link_taken h.ghost hc' (by rw [hph]; rfl)), hn⟩
        · exact absurd (hc.symm.trans hc') (by simp)
      · rcases hshow with hc' | ⟨t', hc'⟩
        · exact absurd (hc.symm.trans hc') (by simp)
        · exact ⟨hl, hw.tokens_none (hs.nonce_taken h.ghost hc' (by rw [hph]; rfl))⟩
    · obtain ⟨hl, hn⟩ := hs.won hj hshow hph'
      exact ⟨hw.links_none hl, hw.tokens_none hn⟩
  · have hnew : ∀ {j x ei ej}, gs[j]? = some x → Shows e g.call → Shows e x.call →
        ph.taken = some ei → x.phase.taken = some ej → j = i := by
      intro j x ei ej hj hshow hshowj ht htj
      have hold : g.phase = .start → j = i := fun hstart => by
        rw [h.first_alone hs hshow hstart ht hj hshowj] at htj
        cases htj
      rcases step_taken h.step hans ht with ⟨l, -, -, -, hph, -⟩ | ⟨n, -, -, -, hph, -⟩ |
        ⟨l, -, hph, -⟩ | ⟨t, n, -, hph, -⟩
      · exact hold hph
      · exact hold hph
      · exact hs.unique hj h.ghost hshowj hshow htj (by rw [hph]; rfl)
      · exact hs.unique hj h.ghost hshowj hshow htj (by rw [hph]; rfl)
    intro j j' x x' e₁ e₂ hj hj' hshow hshow' ht ht'
    rcases get_set_cases hj with ⟨rfl, rfl⟩ | ⟨-, hold⟩
    · rcases get_set_cases hj' with ⟨rfl, rfl⟩ | ⟨-, hold'⟩
      · rfl
      · exact (hnew hold' hshow hshow' ht ht').symm
    · rcases get_set_cases hj' with ⟨rfl, rfl⟩ | ⟨-, hold'⟩
      · exact hnew hold hshow' hshow ht' ht
      · exact hs.unique hold hold' hshow hshow' ht ht'

end Stepping

/-! ### Every move keeps the invariant -/

/-- What a draw has to be new to. -/
theorem unseen_iff {s : String} :
    unseen cfg s = true ↔ cfg.shared.links s = none ∧ cfg.shared.tokens s = none ∧
      ∀ th ∈ cfg.threads, s ∉ drawn_tokens th.log ∧ th.call ≠ .confirm_link s ∧
        ∀ t, th.call ≠ .confirm_token t s := by
  unfold unseen
  rw [Bool.and_eq_true, Bool.and_eq_true, Option.isNone_iff_eq_none, Option.isNone_iff_eq_none,
    List.all_eq_true, and_assoc]
  refine and_congr_right fun _ => and_congr_right fun _ => forall₂_congr fun th _ => ?_
  cases th.call <;> simp

theorem Stepping.drawn_unseen (h : Stepping cfg gs i ch g o r ph w') {bytes : List UInt8}
    (ho : o = .fill 32) (hch : ch = .bytes bytes) : unseen cfg (base64url bytes) = true := by
  have hd := h.fresh
  have hn := h.next
  rw [ho] at hn
  rw [hch] at hd
  simpa [draws_unseen, hn] using hd

theorem Stepping.links_cached (h : Stepping cfg gs i ch g o r ph w') {l : String}
    (hl : unseen cfg l = true) (hg : ph.taken = none) :
    LinkUnused cfg.shared (stepped gs i g o r ph) l := by
  obtain ⟨hlinks, -, hths⟩ := unseen_iff.mp hl
  refine ⟨hlinks, fun {j x} hj hx => ?_⟩
  rcases get_set_cases hj with ⟨rfl, rfl⟩ | ⟨-, hj⟩
  · exact hg
  · obtain ⟨th, hth, hcall, -⟩ := h.tracked.thread hj
    exact absurd (hcall.symm.trans hx) (hths th (List.mem_of_getElem? hth)).2.1

theorem Stepping.nonces_cached (h : Stepping cfg gs i ch g o r ph w') {n : String}
    (hn : unseen cfg n = true) (hg : ph.taken = none) :
    NonceUnused cfg.shared (stepped gs i g o r ph) n none := by
  obtain ⟨-, htokens, hths⟩ := unseen_iff.mp hn
  refine ⟨fun he => ?_, fun {j x t} hj hx => ?_⟩
  · rw [htokens] at he
    cases he
  · rcases get_set_cases hj with ⟨rfl, rfl⟩ | ⟨-, hj⟩
    · exact hg
    · obtain ⟨th, hth, hcall, -⟩ := h.tracked.thread hj
      exact absurd (hcall.symm.trans hx) ((hths th (List.mem_of_getElem? hth)).2.2 t)

/-- The acting call's own phase. -/
theorem Stepping.standing_self (h : Stepping cfg gs i ch g o r ph w')
    (hI : Standing cfg.shared gs g.phase) : Standing w' (stepped gs i g o r ph) ph := by
  have hstep := h.step
  obtain ⟨c, hans⟩ := h.ans
  have hnone : ∀ e : FA2Entry, (none : Option FA2Entry) = some e →
      nobody_about cfg (brings_link e.link) ≠ true := by simp
  obtain ⟨call, log, phase⟩ := g
  cases hstep with
  | draw_link =>
      obtain ⟨hch, rfl⟩ := World.answer_fill hans
      exact h.links_cached (h.drawn_unseen rfl hch) rfl
  | draw_nonce =>
      obtain ⟨hch, rfl⟩ := World.answer_fill hans
      exact ⟨⟨LinkUnused.cache hI, h.link_untaken hI⟩, h.nonces_cached (h.drawn_unseen rfl hch) rfl⟩
  | draw_otp =>
      obtain rfl := World.answer_idle hans trivial
      obtain ⟨hL, hN⟩ := hI
      exact ⟨⟨hL.cache, h.link_untaken hL⟩, hN.cache, h.nonce_untaken hN hnone⟩
  | put_nonce =>
      obtain rfl := World.answer_tokens_insert hans
      obtain ⟨hL, hN⟩ := hI
      exact ⟨⟨hL.cache, h.link_untaken hL⟩, by simp, h.nonce_untaken hN hnone⟩
  | @put_link email e =>
      obtain rfl := World.answer_links_insert hans
      obtain ⟨hL, hN⟩ := hI
      have hhalf : ∀ e', some e = some e' → nobody_about cfg (brings_link e'.link) ≠ true := by
        rintro e' he
        obtain rfl := Option.some.inj he
        exact half_brings h.tracked h.ghost rfl
      have huntaken : ∀ {j : Nat} {x : ChallengeGhost} {e' : FA2Entry},
          (stepped gs i ⟨.release email, log, .half e⟩ (.links_insert e.link e) ()
            (.released e))[j]? = some x → Shows e x.call → x.phase.taken ≠ some e' := by
        rintro j x e' hj (hx | ⟨t, hx⟩) ht
        · rw [h.link_untaken hL hj hx] at ht
          cases ht
        · rw [h.nonce_untaken hN hhalf hj hx] at ht
          cases ht
      refine ⟨by simp [eq_comm], fun hn => (Option.some.inj (hN.cache hn)).symm, ?_, ?_, ?_, ?_, ?_⟩
      · exact fun hj hx ht => absurd ht (huntaken hj hx)
      · exact fun hj hx ht => absurd ht (huntaken hj (.inl hx))
      · exact fun hj hx ht => absurd ht (huntaken hj (.inr ⟨_, hx⟩))
      · exact fun hj hx hph => absurd (by rw [hph]; rfl) (huntaken hj hx)
      · exact fun hj _ hx _ ht _ => absurd ht (huntaken hj hx)
  | _ => trivial

/-- The other calls' phases. -/
theorem Stepping.standing_other (h : Stepping cfg gs i ch g o r ph w')
    (hI : ChallengesKept cfg.shared gs) {j : Nat} {gj : ChallengeGhost} (hj : gs[j]? = some gj)
    (hne : j ≠ i) : Standing w' (stepped gs i g o r ph) gj.phase := by
  have hstand := hI.standing hj
  have hnone : ∀ e : FA2Entry, (none : Option FA2Entry) = some e →
      nobody_about cfg (brings_link e.link) ≠ true := by simp
  have hlink : ∀ {l}, gj.phase.link = some l → LinkUnused cfg.shared gs l →
      LinkUnused w' (stepped gs i g o r ph) l := by
    intro l hl hL
    refine ⟨?_, h.link_untaken hL⟩
    rcases h.link_of_other hI hj hne hl with hw | hw
    · rw [hw, hL.cache]
    · exact hw
  have hnonce : ∀ {n x}, gj.phase.nonce = some n → NonceUnused cfg.shared gs n x →
      (∀ e, x = some e → nobody_about cfg (brings_link e.link) ≠ true) →
      NonceUnused w' (stepped gs i g o r ph) n x := by
    intro n x hn hN hx
    refine ⟨fun {e} he => ?_, h.nonce_untaken hN hx⟩
    rcases h.token_of_other hI hj hne hn with hw | hw
    · rw [hw] at he
      exact hN.cache he
    · rw [hw] at he
      cases he
  cases hph : gj.phase with
  | linked l =>
      rw [hph] at hstand hlink
      exact hlink rfl hstand
  | named l n =>
      rw [hph] at hstand hlink hnonce
      exact ⟨hlink rfl hstand.1, hnonce rfl hstand.2 hnone⟩
  | ready e =>
      rw [hph] at hstand hlink hnonce
      exact ⟨hlink rfl hstand.1, hnonce rfl hstand.2 hnone⟩
  | half e =>
      rw [hph] at hstand hlink hnonce
      refine ⟨hlink rfl hstand.1, hnonce rfl hstand.2 ?_⟩
      rintro e' he
      obtain rfl := Option.some.inj he
      exact half_brings h.tracked hj hph
  | released e =>
      rw [hph] at hstand
      exact h.settled hstand ⟨h.link_of_other hI hj hne (by rw [hph]; rfl),
        h.token_of_other hI hj hne (by rw [hph]; rfl)⟩
  | start | took e | won e | lost => trivial

theorem Stepping.kept (h : Stepping cfg gs i ch g o r ph w')
    (hI : ChallengesKept cfg.shared gs) : ChallengesKept w' (stepped gs i g o r ph) := by
  obtain ⟨c, hans⟩ := h.ans
  have hseen : ∀ {j : Nat} {gj : ChallengeGhost} {s : String} {bytes : List UInt8},
      gs[j]? = some gj → gj.phase.link = some s ∨ gj.phase.nonce = some s → o = .fill 32 →
      ch = .bytes bytes → base64url bytes ≠ s := by
    intro j gj s bytes hj hs ho hch hb
    obtain ⟨-, -, hths⟩ := unseen_iff.mp (h.drawn_unseen ho hch)
    obtain ⟨th, hth, -, hlog, -⟩ := h.tracked.thread hj
    have hmem := hI.drawn hj hs
    rw [hlog, ← hb] at hmem
    exact (hths th (List.mem_of_getElem? hth)).1 hmem
  have hlink : ∀ {j : Nat} {gj : ChallengeGhost} {l : String}, gs[j]? = some gj →
      gj.phase.link = some l → ph.link = some l → j = i := by
    intro j gj l hj hl hl'
    rcases step_link h.step hans hl' with hold | ⟨bytes, ho, hch, hb, -⟩
    · exact hI.links hj h.ghost hl hold
    · exact absurd hb (hseen hj (.inl hl) ho hch)
  have hnonce : ∀ {j : Nat} {gj : ChallengeGhost} {n : String}, gs[j]? = some gj →
      gj.phase.nonce = some n → ph.nonce = some n → j = i := by
    intro j gj n hj hn hn'
    rcases step_nonce h.step hans hn' with hold | ⟨bytes, l, ho, hch, hb, -⟩
    · exact hI.nonces hj h.ghost hn hold
    · exact absurd hb (hseen hj (.inr hn) ho hch)
  refine ⟨?_, ?_, ?_, ?_⟩
  · intro j x s hj hs
    rcases get_set_cases hj with ⟨rfl, rfl⟩ | ⟨-, hj⟩
    · have hdraw : ∀ {bytes}, (h : o = .fill 32) → ch = .bytes bytes → base64url bytes = s →
          s ∈ drawn_tokens (⟨o, r⟩ :: g.log) := by
        rintro bytes rfl rfl rfl
        obtain ⟨hr, -⟩ := World.answer_fill hans
        cases hr
        exact List.mem_cons_self
      rcases hs with hl | hn
      · rcases step_link h.step hans hl with hold | ⟨bytes, ho, hch, hb, -⟩
        · exact mem_drawn_tokens_cons (hI.drawn h.ghost (.inl hold)) _
        · exact hdraw ho hch hb
      · rcases step_nonce h.step hans hn with hold | ⟨bytes, l, ho, hch, hb, -⟩
        · exact mem_drawn_tokens_cons (hI.drawn h.ghost (.inr hold)) _
        · exact hdraw ho hch hb
    · exact hI.drawn hj hs
  · intro j j' x x' l hj hj' hl hl'
    rcases get_set_cases hj with ⟨rfl, rfl⟩ | ⟨-, hold⟩
    · rcases get_set_cases hj' with ⟨rfl, rfl⟩ | ⟨-, hold'⟩
      · rfl
      · exact (hlink hold' hl' hl).symm
    · rcases get_set_cases hj' with ⟨rfl, rfl⟩ | ⟨-, hold'⟩
      · exact hlink hold hl hl'
      · exact hI.links hold hold' hl hl'
  · intro j j' x x' n hj hj' hn hn'
    rcases get_set_cases hj with ⟨rfl, rfl⟩ | ⟨-, hold⟩
    · rcases get_set_cases hj' with ⟨rfl, rfl⟩ | ⟨-, hold'⟩
      · rfl
      · exact (hnonce hold' hn' hn).symm
    · rcases get_set_cases hj' with ⟨rfl, rfl⟩ | ⟨-, hold'⟩
      · exact hnonce hold hn hn'
      · exact hI.nonces hold hold' hn hn'
  · intro j x hj
    rcases get_set_cases hj with ⟨rfl, rfl⟩ | ⟨hne, hj⟩
    · exact h.standing_self (hI.standing h.ghost)
    · exact h.standing_other hI hj hne

/-- With nobody new holding an entry and nothing new in the caches, every challenge stands. -/
theorem Standing.mono {w w' : World} {gs gs' : List ChallengeGhost} {ph : ChallengePhase}
    (hgs : ∀ {j : Nat} {x : ChallengeGhost} {e : FA2Entry}, gs'[j]? = some x →
      x.phase.taken = some e → gs[j]? = some x)
    (hw : ∀ e, Stepping.Shrinks w w' e) (h : Standing w gs ph) : Standing w' gs' ph := by
  have hlink : ∀ {l}, LinkUnused w gs l → LinkUnused w' gs' l := by
    intro l hL
    refine ⟨(hw ⟨l, 0, 0, l⟩).links_none hL.cache, fun {j x} hj hx => ?_⟩
    by_contra hne
    obtain ⟨e, he⟩ := Option.ne_none_iff_exists'.mp hne
    exact hne (hL.untaken (hgs hj he) hx)
  have hnonce : ∀ {n x}, NonceUnused w gs n x → NonceUnused w' gs' n x := by
    intro n x hN
    refine ⟨fun he => hN.cache ((hw ⟨n, 0, 0, n⟩).tokens_some he), fun {j x t} hj hx => ?_⟩
    by_contra hne
    obtain ⟨e, he⟩ := Option.ne_none_iff_exists'.mp hne
    exact hne (hN.untaken (hgs hj he) hx)
  cases ph with
  | linked l => exact hlink h
  | named l n => exact ⟨hlink h.1, hnonce h.2⟩
  | ready e => exact ⟨hlink h.1, hnonce h.2⟩
  | half e => exact ⟨hlink h.1, hnonce h.2⟩
  | released e =>
      refine ⟨fun hl => h.links ((hw e).links_some hl), fun hn => h.tokens ((hw e).tokens_some hn),
        fun hj hx ht => h.entry (hgs hj ht) hx ht,
        fun hj hx ht => (hw e).links_none (h.link_taken (hgs hj ht) hx ht),
        fun hj hx ht => (hw e).tokens_none (h.nonce_taken (hgs hj ht) hx ht), ?_,
        fun hi hj hx hx' ht ht' => h.unique (hgs hi ht) (hgs hj ht') hx hx' ht ht'⟩
      intro j x e' hj hx hph
      obtain ⟨hl, hn⟩ := h.won (hgs hj (by rw [hph]; rfl)) hx hph
      exact ⟨(hw e).links_none hl, (hw e).tokens_none hn⟩
  | start | took e | won e | lost => trivial

theorem ChallengesKept.spawn {w : World} (hI : ChallengesKept w gs) (call : ChallengeCall) :
    ChallengesKept w (gs ++ [⟨call, [], .start⟩]) := by
  have hold : ∀ {j : Nat} {x : ChallengeGhost}, (gs ++ [⟨call, [], .start⟩])[j]? = some x →
      x.phase ≠ .start → gs[j]? = some x := by
    intro j x hj hx
    rcases get_snoc_cases hj with ⟨-, rfl⟩ | hj
    · exact absurd rfl hx
    · exact hj
  have hlink : ∀ {ph : ChallengePhase} {l}, ph.link = some l → ph ≠ .start := by
    rintro ph l hl rfl
    cases hl
  have hnonce : ∀ {ph : ChallengePhase} {n}, ph.nonce = some n → ph ≠ .start := by
    rintro ph n hn rfl
    cases hn
  refine ⟨?_, ?_, ?_, ?_⟩
  · intro j x s hj hs
    exact hI.drawn (hold hj (hs.elim hlink hnonce)) hs
  · exact fun hj hj' hl hl' => hI.links (hold hj (hlink hl)) (hold hj' (hlink hl')) hl hl'
  · exact fun hj hj' hn hn' => hI.nonces (hold hj (hnonce hn)) (hold hj' (hnonce hn')) hn hn'
  · intro j x hj
    by_cases hx : x.phase = .start
    · rw [hx]
      trivial
    · refine Standing.mono (fun hj' ht => hold hj' ?_) (fun e => ⟨.inl rfl, .inl rfl⟩)
        (hI.standing (hold hj hx))
      intro hs
      rw [hs] at ht
      cases ht

theorem ChallengesKept.expire {w : World} (hI : ChallengesKept w gs) (ev : Expiry) :
    ChallengesKept (w.expire ev) gs := by
  refine ⟨hI.drawn, hI.links, hI.nonces, fun hj => Standing.mono (fun h _ => h) ?_ (hI.standing hj)⟩
  intro e
  cases ev with
  | token k =>
      refine ⟨.inl rfl, ?_⟩
      by_cases h : e.nonce = k
      · exact .inr (by simp [World.expire, h])
      · exact .inl (by simp [World.expire, h])
  | link k =>
      refine ⟨?_, .inl rfl⟩
      by_cases h : e.link = k
      · exact .inr (by simp [World.expire, h])
      · exact .inl (by simp [World.expire, h])
  | user | reg_state | auth_state => exact ⟨.inl rfl, .inl rfl⟩

end Invariant

/-! ### Runs -/

section Runs

variable {c : Crates} {w : World} {cfg : ChallengeConfig}
  {evs : List (Basis.Event Choice ChallengeCall Expiry)}

theorem challenges_kept
    (hdraws : (challenges c).Along (fun cfg ev => draws_unseen cfg ev = true) ⟨w, []⟩ evs)
    (halone : (challenges c).Along (fun cfg ev => undisturbed cfg ev = true) ⟨w, []⟩ evs)
    (hrun : (challenges c).run ⟨w, []⟩ evs = some cfg) :
    ∃ gs, Protocol.Tracked challenging cfg gs ∧ ChallengesKept cfg.shared gs := by
  refine Protocol.run_tracks (challenging_follows c) ChallengesKept ?_
    ⟨[], Protocol.tracked_nil _ w, ?_⟩ (System.along_and hdraws halone) hrun
  · intro cfg gs ev s' gs' htr hI hC hmv
    cases hmv with
    | spawn call => exact hI.spawn call
    | step hg hcall hnext hans hstep =>
        exact Stepping.kept ⟨htr, hg, hnext, ⟨c, hans⟩, hstep, hC.1, hC.2⟩ hI
    | env ev => exact hI.expire ev
  · constructor <;> intros <;> simp_all

theorem single_use_of_kept {gs : List ChallengeGhost} (htr : Protocol.Tracked challenging cfg gs)
    (hI : ChallengesKept cfg.shared gs) : SingleUse cfg := by
  intro r ch hres i j hpi hpj hci hcj
  obtain ⟨g, hg, e, hph, rfl⟩ := htr.final hres
  have hs : Settled cfg.shared gs e := by
    have := hI.standing hg
    rwa [hph] at this
  have hwon : ∀ {k}, Presents cfg ⟨e.token, e.link, e.nonce⟩ k → Confirmed cfg k →
      ∃ gk e', gs[k]? = some gk ∧ Shows e gk.call ∧ gk.phase.taken = some e' := by
    rintro k hpres ⟨u, hu⟩
    obtain ⟨gk, hgk, e', hphk⟩ := htr.final hu
    refine ⟨gk, e', hgk, ?_, by rw [hphk]; rfl⟩
    have hcall := htr.call hgk
    rcases hpres with hp | ⟨t, hp⟩
    · exact .inl (Option.some.inj (hcall.symm.trans hp))
    · exact .inr ⟨t, Option.some.inj (hcall.symm.trans hp)⟩
  obtain ⟨gi, ei, hgi, hsi, hti⟩ := hwon hpi hci
  obtain ⟨gj, ej, hgj, hsj, htj⟩ := hwon hpj hcj
  exact hs.unique hgi hgj hsi hsj hti htj

end Runs

/-- **A challenge is confirmed at most once**, in whichever form, in every run whose draws are
new and whose confirmations are undisturbed. -/
theorem challenge_single_use (c : Crates) (w : World)
    (evs : List (Basis.Event Choice ChallengeCall Expiry)) (cfg : ChallengeConfig)
    (hdraws : (challenges c).Along (fun cfg ev => draws_unseen cfg ev = true) ⟨w, []⟩ evs)
    (halone : (challenges c).Along (fun cfg ev => undisturbed cfg ev = true) ⟨w, []⟩ evs)
    (hrun : (challenges c).run ⟨w, []⟩ evs = some cfg) : SingleUse cfg := by
  obtain ⟨gs, htr, hI⟩ := challenges_kept hdraws halone hrun
  exact single_use_of_kept htr hI

/-- The link is confirmed from start to end, and the password after it. -/
def in_turn : List (Basis.Event Choice ChallengeCall Expiry) :=
  [.spawn (.release 7), .step 0 (.bytes (List.replicate 32 1)),
    .step 0 (.bytes (List.replicate 32 2)), .step 0 (.number 123456), .step 0 .go, .step 0 .go,
    .spawn (.confirm_link (token_of 1)), .spawn (.confirm_token 123456 (token_of 2)),
    .step 1 .go, .step 1 .go, .step 2 .go]

theorem challenge_single_use_in_turn :
    ∃ cfg, (challenges sample_crates).run ⟨World.of [], []⟩ in_turn = some cfg ∧
      Confirmed cfg 1 ∧ SingleUse cfg :=
  ⟨_, rfl, ⟨7, rfl⟩, challenge_single_use sample_crates (World.of []) in_turn _ (by decide)
    (by decide) rfl⟩

/-- Both forms take their entry before either removes the other's. -/
def both_forms : List (Basis.Event Choice ChallengeCall Expiry) :=
  [.spawn (.release 7), .step 0 (.bytes (List.replicate 32 1)),
    .step 0 (.bytes (List.replicate 32 2)), .step 0 (.number 123456), .step 0 .go, .step 0 .go,
    .spawn (.confirm_link (token_of 1)), .spawn (.confirm_token 123456 (token_of 2)),
    .step 1 .go, .step 2 .go, .step 1 .go, .step 2 .go]

/-- **Without that condition one challenge is confirmed twice.** -/
theorem both_forms_confirmed : ∃ cfg,
    (challenges sample_crates).Along (fun cfg ev => draws_unseen cfg ev = true)
      ⟨World.of [], []⟩ both_forms ∧
    (challenges sample_crates).run ⟨World.of [], []⟩ both_forms = some cfg ∧ ¬ SingleUse cfg := by
  refine ⟨_, by decide, rfl, ?_⟩
  intro h
  have hij := h 0 ⟨123456, token_of 1, token_of 2⟩ rfl 1 2 (.inl rfl) (.inr ⟨123456, rfl⟩)
    ⟨7, rfl⟩ ⟨7, rfl⟩
  cases hij

end Authnz
