/-
Revocation against exchanges in progress.

A refresh reads `revoked` in one statement and deletes the row in a later one that
does not look at it, so a revocation in between is undone by the successor.  And a
revocation of all of a user's tokens visits the rows it saw when it started: a token
that is committed after that stays.  Where no call does either, revocation is final:
a revoked token is never exchanged, and whatever token the user has afterwards was
issued afterwards, or comes of one that was.
-/
import Authnz.Proofs.Reuse

namespace Authnz

open Basis

/-! ### Final revocation -/

/-- A token of the user that is not revoked is in the table at place `d`. -/
def Live (t : Table Record) (u : Uuid) (d : Nat) : Prop :=
  ∃ s r, t[d]? = some s ∧ s.current = some (.refresh_token r) ∧ r.user_id = u ∧
    r.revoked ≠ some true

/-- Call `i` has deleted the row at place `d`. -/
def HasDeleted (t : Table Record) (i d : Nat) : Prop :=
  ∃ s, t[d]? = some s ∧ ⟨some i, none⟩ ∈ s.versions

/-- The token at this place was issued by such a call, or exchanged for one that stems from one. -/
inductive StemsFrom (calls : Nat → Option TokenCall) (t : Table Record) (late : Nat → Prop) :
    Nat → Prop
  | issued {k d : Nat} {user_id : Uuid} {issuer : String}
      (hcall : calls k = some (.issue_token_pair user_id issuer)) (hlate : late k)
      (hd : HasIssued t k d) : StemsFrom calls t late d
  | exchanged {k d e : Nat} {cmd : RefreshCmd} (hcall : calls k = some (.refresh cmd))
      (hd : HasIssued t k d) (he : HasDeleted t k e) (h : StemsFrom calls t late e) :
      StemsFrom calls t late d

/-- Call `k` began after call `i` had returned `Ok`. -/
def BeganAfter (jwt_svc : JwtService) (w : World) (evs : List (Basis.Event Choice TokenCall Expiry))
    (i k : Nat) : Prop :=
  ∃ before after mid, evs = before ++ after ∧
    (exchanging jwt_svc).run ⟨w, []⟩ before = some mid ∧
    mid.result i = some (.done (.ok ())) ∧ mid.threads.length ≤ k

/-- What is revoked stays revoked, and has no successor. -/
structure RevocationFinal (jwt_svc : JwtService) (w : World)
    (evs : List (Basis.Event Choice TokenCall Expiry)) (cfg : TokenConfig) : Prop where
  /-- A refresh that commits a successor has been given a token no revocation had reached. -/
  unexchanged : ∀ {i d e : Nat} {cmd : RefreshCmd} {s : Slot Record} {x : Version Record}
    {r : RefreshToken}, cfg.call i = some (.refresh cmd) → HasIssued cfg.shared.db i d →
    cfg.shared.db[e]? = some s → x ∈ s.versions → x.row = some (.refresh_token r) →
    r.token_hash = cmd.hash jwt_svc.crates → r.revoked ≠ some true
  /-- Once all of a user's tokens have been revoked, those they have stem from later ones. -/
  swept : ∀ {i d : Nat} {u : Uuid}, cfg.call i = some (.revoke_all_user_tokens u) →
    cfg.result i = some (.done (.ok ())) → Live cfg.shared.db u d →
    StemsFrom cfg.call cfg.shared.db (BeganAfter jwt_svc w evs i) d

/-! ### What has to keep clear of a revocation -/

/-- The row is a revoked token. -/
def revoked_token : Record → Bool := refresh_tokens.sel fun t => t.revoked == some true

/-- A refresh's DELETE does not get to a revoked row. -/
def spares_revoked (cfg : TokenConfig) : Basis.Event Choice TokenCall Expiry → Bool
  | .step i ch =>
      match cfg.call i, cfg.next i with
      | some (.refresh _), some (.sql (.visit d _ _)) =>
          ch == .fail || !(cfg.shared.db[d]?).any (Slot.hits i revoked_token)
      | _, _ => true
  | _ => true

/-- The call has started to revoke the user's tokens. -/
def sweeping (user_id : Uuid) : TokenCall → Op → Bool
  | .revoke_all_user_tokens u, .sql (.visit _ _ _) => u == user_id
  | .revoke_all_user_tokens u, .sql .commit => u == user_id
  | _, _ => false

/-- No token of a user is committed while their tokens are being revoked, unless it is revoked
itself. -/
def none_slips_in (cfg : TokenConfig) : Basis.Event Choice TokenCall Expiry → Bool
  | .step i _ =>
      match cfg.next i with
      | some (.sql .commit) => cfg.shared.db.all fun s =>
          match s.lock with
          | some (k, some (.refresh_token t)) =>
              k != i || t.revoked == some true || nobody_about cfg (sweeping t.user_id)
          | _ => true
      | _ => true
  | _ => true

def TokenCall.issues_to (user_id : Uuid) : TokenCall → Bool
  | .issue_token_pair u _ => u == user_id
  | _ => false

/-- No pair is being issued to a user when the revocation of their tokens is committed. -/
def none_under_way (cfg : TokenConfig) : Basis.Event Choice TokenCall Expiry → Bool
  | .step i _ =>
      match cfg.call i, cfg.next i with
      | some (.revoke_all_user_tokens u), some (.sql .commit) =>
          nobody_about cfg fun call _ => call.issues_to u
      | _, _ => true
  | _ => true

/-- Exchanges, issues and revocations keep clear of one another. -/
def clear_of_revocations (cfg : TokenConfig) (ev : Basis.Event Choice TokenCall Expiry) : Bool :=
  new_hash cfg ev && finds_its_row cfg ev && spares_revoked cfg ev && none_slips_in cfg ev &&
    none_under_way cfg ev

/-! ### What a call has deleted was not revoked -/

theorem revoked_iff {r : Record} : revoked_token r = true ↔ IsRevoked r := by
  unfold revoked_token
  rw [refresh_tokens.sel_iff]
  refine exists_congr fun t => and_congr_right fun _ => ?_
  exact beq_iff_eq

/-- The rows a call has deleted. -/
def TokenPhase.deleted : TokenPhase → List (Nat × Record)
  | .deleting _ _ acc | .unsigned acc | .minting _ acc _ | .put _ acc _ _
  | .exchanged _ acc _ _ => acc
  | _ => []

/-- No refresh has deleted a revoked row. -/
def AllSpared {c : Crates} (gs : List (TokenGhost c)) : Prop :=
  ∀ {i : Nat} {g : TokenGhost c} {cmd : RefreshCmd}, gs[i]? = some g → g.call = .refresh cmd →
    ∀ x ∈ g.phase.deleted, ¬ IsRevoked x.2

section Steps

variable {c : Crates} {n : Nat} {gs : List (TokenGhost c)} {cfg : TokenConfig} {w w' : World}
  {i d : Nat} {u : Uuid} {ch : Choice} {call : TokenCall} {cmd : RefreshCmd}
  {log : List ((o : Op) × o.Reply)} {ph ph' : TokenPhase} {o : Op} {r : o.Reply}

/-- What a refresh deletes next is not revoked either. -/
theorem TokenStep.spares (h : TokenStep c (.refresh cmd) ph o r ph')
    (hcall : cfg.call i = some (.refresh cmd)) (hnext : cfg.next i = some o)
    (hspares : spares_revoked cfg (.step i ch) = true)
    (hans : World.answer c i o ch cfg.shared = some (w', r))
    (hph : ∀ x ∈ ph.deleted, ¬ IsRevoked x.2) : ∀ x ∈ ph'.deleted, ¬ IsRevoked x.2 := by
  cases h with
  | @take _ owner d is acc rows =>
      simp only [spares_revoked, hcall, hnext, take_token] at hspares
      have hne : ¬ (ch == .fail) = true := fun hc => visit_not_failed hans (beq_iff_eq.mp hc)
      simp only [hne, Bool.false_or] at hspares
      intro x hx
      rcases List.mem_append.mp hx with hx | hx
      · exact hph x hx
      · rcases World.answer_visit hans with ⟨-, hr | ⟨hr, -⟩⟩ | ⟨s, a, hs, -, hview, -, -, hr⟩
        · cases hr
        · obtain rfl := Except.ok.inj hr
          cases hx
        · obtain rfl := Except.ok.inj hr
          obtain rfl : x = (d, a) := by simpa [Relation.del] using hx
          intro hrev
          rw [hs, Option.any_some, Slot.hits, hview, Option.any_some,
            revoked_iff.mpr hrev] at hspares
          cases hspares
  | draw | clock | put | commit | sign | sign_fails | drop_exchanged => exact hph
  | _ =>
      intro x hx
      cases hx

/-! ### Tokens that come to life -/

/-- A token comes to life when the call that has put it in the table commits. -/
theorem TokensKept.live_step (hI : TokensKept c n w.db gs) (hg : gs[i]? = some ⟨call, log, ph⟩)
    (hans : World.answer c i o ch w = some (w', r)) (hstep : TokenStep c call ph o r ph')
    (h : Live w'.db u d) :
    Live w.db u d ∨ ∃ owner acc raw t s, o = .sql .commit ∧
      ph = .put owner acc raw (.refresh_token t) ∧ owner.1 = u ∧ t.user_id = u ∧
      t.revoked ≠ some true ∧ w'.db = w.db.map (Slot.commit i) ∧ w.db[d]? = some s ∧
      s.lock = some (i, some (.refresh_token t)) := by
  obtain ⟨s', t, hs', hcur, hu, hrev⟩ := h
  have hf : TokenFacts c w.db i call ph := hI.journal.facts hg
  rcases hstep.part.versions hans with ⟨rfl, -⟩ | hold
  · rcases World.answer_commit hans with ⟨hdb, rfl⟩ | ⟨hdb, -⟩
    · rw [hdb, List.getElem?_map] at hs'
      obtain ⟨s, hs, rfl⟩ := Option.map_eq_some_iff.mp hs'
      by_cases hown : ∃ v, s.lock = some (i, v)
      · -- the row has been in the caller's hands
        obtain ⟨v, hl⟩ := hown
        rw [Slot.commit_of_own hl] at hcur
        obtain rfl : v = some (.refresh_token t) := hcur
        cases hstep with
        | @commit _ owner acc raw row =>
            obtain ⟨⟨e, ht⟩, ⟨expires_at, created_at, hrow⟩, -⟩ := hf
            rcases List.mem_append.mp ((ht.holds rfl d _).mp ⟨s, hs, hl⟩) with hgone | hput
            · cases (mem_gone.mp hgone).1
            · obtain ⟨-, rfl⟩ : d = e ∧ Record.refresh_token t = row := by simpa using hput
              refine .inr ⟨owner, acc, raw, t, s, rfl, rfl, ?_, hu, hrev, hdb, hs, hl⟩
              cases hrow
              exact hu
        | @commit_marks _ acc =>
            obtain ⟨x, hx, heq⟩ := List.mem_map.mp ((hf.1.holds rfl d _).mp ⟨s, hs, hl⟩)
            obtain ⟨t', ht', hrev'⟩ := hf.2.2.2 x hx
            obtain ⟨-, heq⟩ := Prod.mk.inj heq
            rw [ht'] at heq
            cases heq
            exact absurd hrev' hrev
        | @commit_removed id acc =>
            cases (mem_gone.mp ((hf.1.holds rfl d _).mp ⟨s, hs, hl⟩)).1
      · rw [Slot.commit_of_not_own fun v hv => hown ⟨v, hv⟩] at hcur
        exact .inl ⟨s, t, hs, hcur, hu, hrev⟩
    · rw [hdb, List.getElem?_map] at hs'
      obtain ⟨s, hs, rfl⟩ := Option.map_eq_some_iff.mp hs'
      rw [Slot.current_rollback] at hcur
      exact .inl ⟨s, t, hs, hcur, hu, hrev⟩
  · rcases hold hs' with hnil | ⟨s, hs, hv⟩
    · rw [Slot.current, hnil] at hcur
      cases hcur
    · rw [Slot.current_of_versions hv] at hcur
      exact .inl ⟨s, t, hs, hcur, hu, hrev⟩

end Steps

/-! ### A revocation in progress -/

/-- The books, and that a revocation of all of a user's tokens has seen all that are live. -/
structure SweepsKept (c : Crates) (n : Nat) (t : Table Record) (gs : List (TokenGhost c)) :
    Prop where
  kept : TokensKept c n t gs
  found : AllFound gs
  spared : AllSpared gs
  ahead : ∀ {i d : Nat} {u : Uuid} {g : TokenGhost c} {is : List Nat} {acc : List (Nat × Record)},
    gs[i]? = some g → g.call = .revoke_all_user_tokens u → g.phase = .marking is acc →
    Live t u d → d ∈ acc.map Prod.fst ++ is

section Sweeps

variable {c : Crates} {n : Nat} {gs : List (TokenGhost c)} {cfg : TokenConfig} {w w' : World}
  {i d : Nat} {u : Uuid} {ch : Choice} {g : TokenGhost c}

/-- A revocation that is going on is noticed. -/
theorem about_to_sweep (htr : Protocol.Tracked (rotating c) cfg gs) (hg : gs[i]? = some g)
    (hcall : g.call = .revoke_all_user_tokens u) {is : List Nat} {acc : List (Nat × Record)}
    (hph : g.phase = .marking is acc) : nobody_about cfg (sweeping u) ≠ true := by
  obtain ⟨th, hth, hthcall, o, r, ph, hnext, hstep⟩ := htr.asking hg (by
    intro a hfinal
    rw [hcall, hph] at hfinal
    rcases a with (e | res) | (e | res) | r
    · exact hfinal
    · obtain ⟨_, _, _, heq⟩ := hfinal
      cases heq
    · exact hfinal
    · obtain ⟨_, heq⟩ := hfinal
      cases heq
    · obtain ⟨_, heq⟩ := hfinal
      cases heq)
  intro hall
  have hfalse := nobody_about_iff.mp hall th hth o hnext
  rw [hthcall, hcall] at hfalse
  rw [hcall, hph] at hstep
  cases hstep <;> simp [sweeping, mark_token] at hfalse

theorem nobody_sweeping (h : none_slips_in cfg (.step i ch) = true)
    (hnext : cfg.next i = some (.sql .commit)) {s : Slot Record} {t : RefreshToken}
    (hs : cfg.shared.db[d]? = some s) (hl : s.lock = some (i, some (.refresh_token t)))
    (hrev : t.revoked ≠ some true) : nobody_about cfg (sweeping t.user_id) = true := by
  simp only [none_slips_in, hnext] at h
  have hslot := List.all_eq_true.mp h s (List.mem_of_getElem? hs)
  rw [hl] at hslot
  simpa [hrev] using hslot

theorem sel_user {t : RefreshToken} (hu : t.user_id = u) :
    refresh_tokens.sel (fun t => t.user_id == u) (.refresh_token t) = true :=
  refresh_tokens.sel_iff.mpr ⟨t, rfl, beq_iff_eq.mpr hu⟩

/-- What a revocation starts with is all there is. -/
theorem live_matching (hset : Tally w.db i (some []) []) (h : Live w.db u d) :
    d ∈ SqlOp.matching i (refresh_tokens.sel fun t => t.user_id == u) w.db := by
  obtain ⟨s, t, hs, hcur, hu, -⟩ := h
  have hview : s.view i = some (.refresh_token t) := by
    rw [hset.view hs (by simp), hcur]
  refine List.mem_filter.mpr ⟨List.mem_range.mpr (List.getElem?_eq_some_iff.mp hs).1, ?_⟩
  rw [hs, Option.any_some, Slot.hits, hview, Option.any_some]
  exact sel_user hu

/-- A revocation deals with a row at every step. -/
theorem TokenStep.ahead {ph : TokenPhase} {o : Op} {r : o.Reply} {is : List Nat}
    {acc : List (Nat × Record)}
    (hstep : TokenStep c (.revoke_all_user_tokens u) ph o r (.marking is acc))
    (hf : TokenFacts c w.db i (.revoke_all_user_tokens u) ph)
    (hans : World.answer c i o ch w = some (w', r)) (hlive : Live w.db u d)
    (hahead : ∀ {is : List Nat} {acc : List (Nat × Record)}, ph = .marking is acc →
      d ∈ acc.map Prod.fst ++ is) : d ∈ acc.map Prod.fst ++ is := by
  cases hstep with
  | @scan_marks _ q is hq =>
      cases hq
      obtain ⟨-, rfl⟩ := World.answer_scanned hans
      simpa using live_matching hf hlive
  | @mark _ q e is acc rows hq =>
      cases hq
      obtain ⟨ht, hnodup, -⟩ := hf
      have hmem := hahead rfl
      by_cases hde : d = e
      · subst hde
        rcases World.answer_visit hans with ⟨-, hr | ⟨-, hmiss⟩⟩ | ⟨s, a, -, -, -, -, -, hr⟩
        · cases hr
        · obtain ⟨s, t, hs, hcur, hu, -⟩ := hlive
          have hview : s.view i = some (.refresh_token t) := by
            rw [ht.view hs (not_mem_marks hnodup), hcur]
          have hhits := (hmiss s hs).2
          rw [Slot.hits, hview, Option.any_some, sel_user hu] at hhits
          cases hhits
        · obtain rfl := Except.ok.inj hr
          simp
      · simp only [List.map_append, List.mem_append, List.mem_cons, hde, false_or] at hmem ⊢
        exact hmem.elim (fun h => .inl (.inl h)) .inr

end Sweeps

/-! ### Every step keeps it -/

section Moves

variable {jwt_svc : JwtService} {n : Nat} {cfg : TokenConfig}
  {gs gs' : List (TokenGhost jwt_svc.crates)} {w' : World}
  {ev : Basis.Event Choice TokenCall Expiry}

theorem clear_iff : clear_of_revocations cfg ev = true ↔
    new_hash cfg ev = true ∧ finds_its_row cfg ev = true ∧ spares_revoked cfg ev = true ∧
      none_slips_in cfg ev = true ∧ none_under_way cfg ev = true := by
  simp only [clear_of_revocations, Bool.and_eq_true, and_assoc]

theorem spared_move (hI : AllSpared gs) (hspares : spares_revoked cfg ev = true)
    (hmv : Protocol.Move (exchanging jwt_svc) (rotating jwt_svc.crates) cfg gs ev w' gs') :
    AllSpared gs' := by
  intro j g cmd hg hcmd
  cases hmv with
  | spawn call =>
      rcases get_snoc_cases hg with ⟨-, rfl⟩ | hg
      · obtain rfl : call = .refresh cmd := hcmd
        intro x hx
        cases hx
      · exact hI hg hcmd
  | @step i ch g₀ o s r ph hg₀ hcall hnext hans hstep =>
      rcases get_set_cases hg with ⟨rfl, rfl⟩ | ⟨-, hg⟩
      · have hcmd : g₀.call = .refresh cmd := hcmd
        rw [hcmd] at hcall hstep
        exact hstep.spares hcall hnext hspares hans (hI hg₀ hcmd)
      · exact hI hg hcmd
  | env e => exact hI hg hcmd

/-- **Where all keep clear of it, a revocation keeps sight of what is live.** -/
theorem SweepsKept.move (hI : SweepsKept jwt_svc.crates n cfg.shared.db gs)
    (htr : Protocol.Tracked (rotating jwt_svc.crates) cfg gs)
    (hclear : clear_of_revocations cfg ev = true)
    (hmv : Protocol.Move (exchanging jwt_svc) (rotating jwt_svc.crates) cfg gs ev w' gs') :
    SweepsKept jwt_svc.crates n w'.db gs' := by
  obtain ⟨hnew, hfinds, hspares, hslips, -⟩ := clear_iff.mp hclear
  refine ⟨tokens_move hI.kept hnew hmv, found_move hI.found hfinds hmv,
    spared_move hI.spared hspares hmv, ?_⟩
  intro j d u g is acc hg hcall hph hlive
  cases hmv with
  | spawn call =>
      rcases get_snoc_cases hg with ⟨-, rfl⟩ | hg
      · obtain rfl : call = .revoke_all_user_tokens u := hcall
        cases hph
      · exact hI.ahead hg hcall hph hlive
  | @step i ch g₀ o s r ph hg₀ hcall₀ hnext hans hstep =>
      rcases hI.kept.live_step hg₀ hans hstep hlive with
        hold | ⟨owner, acc', raw, t, sl, rfl, hput, -, hu, hrev, -, hs, hl⟩
      · rcases get_set_cases hg with ⟨rfl, rfl⟩ | ⟨-, hg⟩
        · have hcall : g₀.call = .revoke_all_user_tokens u := hcall
          obtain rfl : ph = .marking is acc := hph
          have hf : TokenFacts jwt_svc.crates cfg.shared.db j g₀.call g₀.phase :=
            hI.kept.journal.facts hg₀
          rw [hcall] at hstep hf
          exact hstep.ahead hf hans hold fun heq => hI.ahead hg₀ hcall heq hold
        · exact hI.ahead hg hcall hph hold
      · rcases get_set_cases hg with ⟨rfl, rfl⟩ | ⟨-, hg⟩
        · have hcall : g₀.call = .revoke_all_user_tokens u := hcall
          obtain rfl : ph = .marking is acc := hph
          rw [hcall, hput] at hstep
          cases hstep
        · exact absurd (hu ▸ nobody_sweeping hslips hnext hs hl hrev)
            (about_to_sweep htr hg hcall hph)
  | env e =>
      have hlive : Live (cfg.shared.expire e).db u d := hlive
      rw [World.expire_db] at hlive
      exact hI.ahead hg hcall hph hlive

end Moves

/-! ### After a revocation -/

/-- From the revocation of user `u`'s tokens on, `m` calls having begun by then. -/
structure AfterSweep (c : Crates) (n m : Nat) (u : Uuid) (t : Table Record)
    (gs : List (TokenGhost c)) :
    Prop where
  sweeps : SweepsKept c n t gs
  length : m ≤ gs.length
  /-- The issues that had begun have ended. -/
  ended : ∀ {k : Nat} {g : TokenGhost c} {issuer : String}, gs[k]? = some g →
    g.call = .issue_token_pair u issuer → k < m → g.phase.Over
  stems : ∀ {d : Nat}, Live t u d → StemsFrom (fun k => gs[k]?.map (·.call)) t (m ≤ ·) d

section After

variable {c : Crates} {n m : Nat} {gs gs' : List (TokenGhost c)} {t t' : Table Record}
  {w w' : World} {i k d : Nat} {u : Uuid} {late late' : Nat → Prop}

theorem HasDeleted.effect (h : HasDeleted t k d) (he : Effect i t t') : HasDeleted t' k d := by
  obtain ⟨s, hs, hv⟩ := h
  exact he.version_stays hs hv

theorem HasIssued.effect (h : HasIssued t k d) (he : Effect i t t') : HasIssued t' k d := by
  obtain ⟨s, r, hs, hv⟩ := h
  obtain ⟨s', hs', hv'⟩ := he.version_stays hs hv
  exact ⟨s', r, hs', hv'⟩

theorem StemsFrom.mono {calls calls' : Nat → Option TokenCall} (h : StemsFrom calls t late d)
    (hcalls : ∀ k call, calls k = some call → calls' k = some call) (he : Effect i t t')
    (hlate : ∀ k, late k → late' k) : StemsFrom calls' t' late' d := by
  induction h with
  | issued hcall hk hd => exact .issued (hcalls _ _ hcall) (hlate _ hk) (hd.effect he)
  | exchanged hcall hd hdel _ ih =>
      exact .exchanged (hcalls _ _ hcall) (hd.effect he) (hdel.effect he) ih

theorem calls_of_same (h : SameCalls gs gs') (k : Nat) (call : TokenCall)
    (hk : gs[k]?.map (·.call) = some call) : gs'[k]?.map (·.call) = some call := by
  obtain ⟨g, hg, rfl⟩ := Option.map_eq_some_iff.mp hk
  obtain ⟨g', hg', hcall⟩ := h hg
  rw [hg', Option.map_some, hcall]

/-- An issue that is over does nothing more. -/
theorem TokenStep.not_over {issuer : String} {ph ph' : TokenPhase} {o : Op} {r : o.Reply}
    (h : TokenStep c (.issue_token_pair u issuer) ph o r ph') : ¬ ph.Over := by
  intro hover
  cases h with
  | scan_marks hq | scan_marks_fails hq => cases hq
  | _ => exact hover

/-- What a refresh is about to replace is a live token of the same user. -/
theorem SweepsKept.replaces (hI : SweepsKept c n w.db gs) {g : TokenGhost c} {cmd : RefreshCmd}
    {owner : Uuid × String} {acc : List (Nat × Record)} {raw : String} {row : Record}
    (hg : gs[i]? = some g) (hcmd : g.call = .refresh cmd) (hph : g.phase = .put owner acc raw row) :
    ∃ x ∈ acc, Live w.db owner.1 x.1 ∧ HasDeleted (w.db.map (Slot.commit i)) i x.1 := by
  have hf : TokenFacts c w.db i g.call g.phase := hI.kept.journal.facts hg
  have hacc : g.phase.Found := hI.found hg hcmd
  have hspared := hI.spared hg hcmd
  rw [hcmd, hph] at hf
  rw [hph] at hacc hspared
  obtain ⟨⟨e, ht⟩, -, ⟨t₀, ⟨d₀, s₀, x₀, hs₀, hx₀, hrow₀⟩, hhash, howner⟩, htaken⟩ := hf
  obtain ⟨x, hx⟩ := List.exists_mem_of_ne_nil acc hacc
  refine ⟨x, hx, ?_, ?_⟩
  · obtain ⟨⟨cmd', heq, hkey⟩, s, hs, hcur⟩ := htaken x hx
    cases heq
    have hbears₀ : s₀.Bears (.refresh_token t₀) := .inl ⟨x₀, hx₀, hrow₀⟩
    have hbears : s.Bears x.2 := Slot.bears_of_current hcur
    have hplace := hI.kept.keyed _ _ _ _ _ _ _ hs₀ hs hbears₀ hbears (congrArg some hhash) hkey
    obtain rfl := Option.some.inj (hs₀.symm.trans (hplace ▸ hs))
    -- the row it found and the row it deletes are one row
    have hsame : s₀.Same token_identity := (hI.kept.journal.slots hs₀).same fun h => h.1.symm
    obtain ⟨t', ht', hu, -⟩ := token_of_identity (hsame hbears₀ hbears)
    refine ⟨_, t', hs, by rw [hcur, ht'], by rw [hu, howner], fun hrev => ?_⟩
    exact hspared x hx ⟨t', ht', hrev⟩
  · obtain ⟨y, rest, hs, -⟩ :=
      ((htaken x hx).commit ht (List.mem_append_left _ (mem_gone.mpr ⟨rfl, x.2, hx⟩))).row
    exact ⟨_, hs, List.mem_cons_self⟩

end After

section Later

variable {jwt_svc : JwtService} {n m i : Nat} {cfg : TokenConfig} {u : Uuid}
  {gs gs' : List (TokenGhost jwt_svc.crates)} {w' : World}
  {ev : Basis.Event Choice TokenCall Expiry}

/-- What comes to life after a revocation stems from what was issued after it. -/
theorem AfterSweep.stems_commit (hI : AfterSweep jwt_svc.crates n m u cfg.shared.db gs)
    {g : TokenGhost jwt_svc.crates} {owner : Uuid × String} {acc : List (Nat × Record)}
    {raw : String} {t : RefreshToken} {d : Nat} {s : Slot Record} (hg : gs[i]? = some g)
    (hph : g.phase = .put owner acc raw (.refresh_token t)) (hu : owner.1 = u)
    (hs : cfg.shared.db[d]? = some s) (hl : s.lock = some (i, some (.refresh_token t))) :
    StemsFrom (fun k => gs[k]?.map (·.call)) (cfg.shared.db.map (Slot.commit i)) (m ≤ ·) d := by
  have hissued : HasIssued (cfg.shared.db.map (Slot.commit i)) i d := by
    refine ⟨_, t, by rw [List.getElem?_map, hs, Option.map_some], ?_⟩
    rw [Slot.commit_of_own hl]
    exact List.mem_cons_self
  have hcall : gs[i]?.map (·.call) = some g.call := by rw [hg, Option.map_some]
  have hf : TokenFacts jwt_svc.crates cfg.shared.db i g.call g.phase :=
    hI.sweeps.kept.journal.facts hg
  rw [hph] at hf
  obtain ⟨-, -, hto, -⟩ := hf
  cases hgcall : g.call with
  | refresh cmd =>
      obtain ⟨x, -, hlive, hdel⟩ := hI.sweeps.replaces hg hgcall hph
      exact .exchanged (hcall.trans (congrArg some hgcall)) hissued hdel
        ((hI.stems (hu ▸ hlive)).mono (fun _ _ h => h) .commit fun _ h => h)
  | issue_token_pair user_id issuer =>
      rw [hgcall] at hto
      obtain rfl : owner = (user_id, issuer) := hto
      obtain rfl : user_id = u := hu
      refine .issued (hcall.trans (congrArg some hgcall)) (Nat.le_of_not_lt fun hlt => ?_) hissued
      have hover := hI.ended hg hgcall hlt
      rw [hph] at hover
      exact hover
  | logout cmd | revoke_all_user_tokens v | delete_user v =>
      rw [hgcall] at hto
      exact hto.elim

theorem AfterSweep.move (hI : AfterSweep jwt_svc.crates n m u cfg.shared.db gs)
    (htr : Protocol.Tracked (rotating jwt_svc.crates) cfg gs)
    (hclear : clear_of_revocations cfg ev = true)
    (hmv : Protocol.Move (exchanging jwt_svc) (rotating jwt_svc.crates) cfg gs ev w' gs') :
    AfterSweep jwt_svc.crates n m u w'.db gs' := by
  have hsweeps := hI.sweeps.move htr hclear hmv
  have hlen := hI.length
  cases hmv with
  | spawn call =>
      refine ⟨hsweeps, by rw [List.length_append]; omega, fun {k g issuer} hg hcall hlt => ?_,
        fun {d} hlive => ?_⟩
      · rcases get_snoc_cases hg with ⟨rfl, -⟩ | hg
        · omega
        · exact hI.ended hg hcall hlt
      · exact (hI.stems hlive).mono (calls_of_same (sameCalls_snoc gs _)) (Effect.none : Effect 0 _ _)
          fun _ h => h
  | @step i ch g₀ o s r ph hg₀ hcall₀ hnext hans hstep =>
      have hcall' : (⟨g₀.call, ⟨o, r⟩ :: g₀.log, ph⟩ : TokenGhost jwt_svc.crates).call =
        g₀.call := rfl
      have hsame := calls_of_same (sameCalls_set hg₀ hcall')
      refine ⟨hsweeps, by rw [List.length_set]; exact hlen, fun {k g issuer} hg hcall hlt => ?_,
        fun {d} hlive => ?_⟩
      · rcases get_set_cases hg with ⟨rfl, rfl⟩ | ⟨-, hg⟩
        · have hcall : g₀.call = .issue_token_pair u issuer := hcall
          rw [hcall] at hstep
          exact absurd (hI.ended hg₀ hcall hlt) hstep.not_over
        · exact hI.ended hg hcall hlt
      · rcases hI.sweeps.kept.live_step hg₀ hans hstep hlive with
          hold | ⟨owner, acc, raw, t, sl, -, hput, howner, -, -, hdb, hs, hl⟩
        · exact (hI.stems hold).mono hsame (hstep.part.effect hans) fun _ h => h
        · rw [hdb]
          exact (hI.stems_commit hg₀ hput howner hs hl).mono hsame (Effect.none : Effect i _ _)
            fun _ h => h
  | env e =>
      refine ⟨hsweeps, hlen, hI.ended, fun {d} hlive => ?_⟩
      change StemsFrom _ (cfg.shared.expire e).db _ _
      have hlive : Live (cfg.shared.expire e).db u d := hlive
      rw [World.expire_db] at hlive ⊢
      exact hI.stems hlive

/-- A call that is not about to do anything has ended. -/
theorem over_of_nobody (hI : TokensKept jwt_svc.crates n cfg.shared.db gs)
    (htr : Protocol.Tracked (rotating jwt_svc.crates) cfg gs)
    (hnobody : nobody_about cfg (fun call _ => call.issues_to u) = true)
    {g : TokenGhost jwt_svc.crates} {issuer : String} (hg : gs[i]? = some g)
    (hcall : g.call = .issue_token_pair u issuer) : g.phase.Over := by
  obtain ⟨th, hth, hthcall, -, -⟩ := htr.thread hg
  have hnone : ∀ o, th.prog.next ≠ some o := by
    intro o hnext
    have hfalse := nobody_about_iff.mp hnobody th (List.mem_of_getElem? hth) o hnext
    rw [← hthcall, hcall] at hfalse
    simp [TokenCall.issues_to] at hfalse
  cases hp : th.prog with
  | ask o k => exact absurd (by rw [hp]; rfl) (hnone o)
  | ret a =>
      obtain ⟨g', hg', hfinal⟩ := htr.final (i := i) (a := a) (by simp [Config.result, hth, hp])
      obtain rfl := Option.some.inj (hg.symm.trans hg')
      have hf : TokenFacts jwt_svc.crates cfg.shared.db i g.call g.phase := hI.journal.facts hg
      rw [hcall] at hfinal hf
      rcases a with (e | res) | (e | res) | r
      · exact hfinal
      · obtain ⟨owner, acc, row, hph⟩ := hfinal
        rw [hph]
        trivial
      · exact hfinal
      · obtain ⟨acc, hph⟩ := hfinal
        rw [hph] at hf
        obtain ⟨-, ⟨q, hq⟩, -⟩ := hf
        cases hq
      · obtain ⟨id, heq⟩ := hfinal
        cases heq

/-- A revoked row is not live once that is committed. -/
theorem not_live_of_marks {t : Table Record} {acc : List (Nat × Record)} {d : Nat}
    (ht : Tally t i (some (marks acc)) []) (hrev : ∀ x ∈ acc, IsRevoked x.2)
    (hd : d ∈ acc.map Prod.fst) : ¬ Live (t.map (Slot.commit i)) u d := by
  intro hlive
  obtain ⟨s', r, hs', hcur, -, hno⟩ := hlive
  obtain ⟨x, hx, rfl⟩ := List.mem_map.mp hd
  obtain ⟨s, hs, hl⟩ := (ht.holds rfl x.1 (some x.2)).mpr (List.mem_map.mpr ⟨x, hx, rfl⟩)
  rw [List.getElem?_map, hs, Option.map_some, Slot.commit_of_own hl] at hs'
  obtain rfl := Option.some.inj hs'
  obtain ⟨t', ht', hrev'⟩ := hrev x hx
  have heq : some x.2 = some (.refresh_token r) := hcur
  rw [ht'] at heq
  cases heq
  exact hno hrev'

/-- **A revocation of all of a user's tokens leaves none live** when it takes effect. -/
theorem SweepsKept.swept {cfg' : TokenConfig} (hI : SweepsKept jwt_svc.crates n cfg.shared.db gs)
    (htr : Protocol.Tracked (rotating jwt_svc.crates) cfg gs)
    (hclear : clear_of_revocations cfg ev = true)
    (hnext : (exchanging jwt_svc).next cfg ev = some cfg')
    (hcall : cfg'.call i = some (.revoke_all_user_tokens u)) (hno : cfg.result i = none)
    (hres : cfg'.result i = some (.done (.ok ()))) :
    ∃ gs', Protocol.Tracked (rotating jwt_svc.crates) cfg' gs' ∧
      AfterSweep jwt_svc.crates n cfg'.threads.length u cfg'.shared.db gs' := by
  obtain ⟨gs', hmv, htr'⟩ := htr.next (rotating_follows jwt_svc) hnext
  have hsweeps := hI.move htr hclear hmv
  refine ⟨gs', htr', ?_⟩
  rw [← htr'.length]
  obtain ⟨g', hg', acc, hph⟩ := htr'.final hres
  have hgcall : g'.call = .revoke_all_user_tokens u :=
    Option.some.inj ((htr'.call hg').symm.trans hcall)
  -- it was this event that marked the rows
  have hbefore : gs[i]? ≠ some g' := by
    intro hg
    obtain ⟨o, r, ph, -, hstep⟩ := htr.unreturned hg hno
    rw [hgcall, hph] at hstep
    cases hstep
  generalize cfg'.shared = w' at hmv hsweeps ⊢
  cases hmv with
  | spawn call =>
      rcases get_snoc_cases hg' with ⟨-, rfl⟩ | hg
      · obtain rfl : call = .revoke_all_user_tokens u := hgcall
        cases hph
      · exact absurd hg hbefore
  | env e => exact absurd hg' hbefore
  | @step j ch g₀ o s r ph hg₀ hcall₀ hnext₀ hans hstep =>
      rcases get_set_cases hg' with ⟨rfl, rfl⟩ | ⟨-, hg⟩
      · obtain ⟨call, log, ph₀⟩ := g₀
        obtain rfl : call = .revoke_all_user_tokens u := hgcall
        obtain rfl : ph = .marked acc := hph
        cases hstep with
        | commit_marks =>
            have hans : World.answer jwt_svc.crates i (.sql .commit) ch cfg.shared =
              some (w', Except.ok ()) := hans
            obtain ⟨-, -, -, -, hnobody⟩ := clear_iff.mp hclear
            simp only [none_under_way, hcall₀, hnext₀] at hnobody
            have hf : TokenFacts jwt_svc.crates cfg.shared.db i _ _ := hI.kept.journal.facts hg₀
            obtain ⟨ht, -, -, hrev⟩ := hf
            refine ⟨hsweeps, Nat.le_refl _, fun {k g issuer} hg hissue _ => ?_, fun {d} hlive => ?_⟩
            · rcases get_set_cases hg with ⟨rfl, rfl⟩ | ⟨-, hg⟩
              · cases hissue
              · exact over_of_nobody hI.kept htr hnobody hg hissue
            · exfalso
              rcases hI.kept.live_step hg₀ hans .commit_marks hlive with
                hold | ⟨_, _, _, _, _, -, hput, -⟩
              · have hd := hI.ahead hg₀ rfl rfl hold
                rw [List.append_nil] at hd
                have hdb := World.answer_committed hans
                rw [hdb] at hlive
                exact not_live_of_marks ht hrev hd hlive
              · cases hput
      · exact absurd hg hbefore

/-- A refresh that has committed a successor has deleted a row that was never revoked. -/
theorem SweepsKept.unexchanged (hI : SweepsKept jwt_svc.crates n cfg.shared.db gs)
    (htr : Protocol.Tracked (rotating jwt_svc.crates) cfg gs) {d e : Nat} {cmd : RefreshCmd}
    {s : Slot Record} {x : Version Record} {r : RefreshToken}
    (hcall : cfg.call i = some (.refresh cmd)) (hissued : HasIssued cfg.shared.db i d)
    (hs : cfg.shared.db[e]? = some s) (hx : x ∈ s.versions) (hrow : x.row = some (.refresh_token r))
    (hhash : r.token_hash = cmd.hash jwt_svc.crates) : r.revoked ≠ some true := by
  have hpresents : PresentsToken cfg i (trim cmd.refresh_token) := ⟨cmd, hcall, rfl⟩
  obtain ⟨g, cmd', hg, hcmd, -⟩ := hpresents.ghost htr
  obtain ⟨s', t', hs', hv⟩ := hissued
  obtain ⟨owner, acc, drawn, hph, -⟩ := hI.kept.issued hg hcmd hs' hv
  obtain rfl : cmd' = cmd := by
    have heq := (htr.call hg).symm.trans hcall
    rw [hcmd] at heq
    cases heq
    rfl
  obtain ⟨a, ha, hused, hkey⟩ := hI.kept.deleted hI.found hg hcmd hph
  have hspared : ¬ IsRevoked a.2 := hI.spared hg hcmd a (by rw [hph]; exact ha)
  obtain ⟨y, rest, hslot, hy⟩ := hused.row
  -- it is the row the refresh has deleted, at some time before that
  have hplace := hI.kept.keyed _ _ _ _ _ _ _ hs hslot (.inl ⟨x, hx, hrow⟩)
    (.inl ⟨y, List.mem_cons_of_mem _ List.mem_cons_self, hy⟩) (congrArg some hhash) hkey
  rw [hplace, hslot] at hs
  obtain rfl := Option.some.inj hs
  intro hrev
  rcases List.mem_cons.mp hx with rfl | hx
  · cases hrow
  rcases List.mem_cons.mp hx with rfl | hx
  · have ha : a.2 = .refresh_token r := Option.some.inj (hy.symm.trans hrow)
    exact hspared ⟨r, ha, hrev⟩
  · have hv : (⟨some i, none⟩ :: y :: rest : List (Version Record)) =
      [⟨some i, none⟩] ++ y :: rest := rfl
    obtain ⟨b, hb, hle⟩ := (hI.kept.journal.slots hslot).before hv hy hx
    rw [hrow] at hb
    cases hb
    exact hspared (hle.2 ⟨r, rfl, hrev⟩)

end Later

/-- **Revocation is final** in every run in which exchanges and issues keep clear of revocations. -/
theorem revocations_are_final (jwt_svc : JwtService) (rows : List Record) (w : World)
    (evs : List (Basis.Event Choice TokenCall Expiry)) (cfg : TokenConfig)
    (hrows : DistinctHashes rows) (hdb : w.db = rows.map Slot.loaded)
    (hclear : (exchanging jwt_svc).Along (fun cfg ev => clear_of_revocations cfg ev = true)
      ⟨w, []⟩ evs)
    (hrun : (exchanging jwt_svc).run ⟨w, []⟩ evs = some cfg) :
    RevocationFinal jwt_svc w evs cfg := by
  have hstart : SweepsKept jwt_svc.crates rows.length w.db [] := by
    refine ⟨hdb ▸ tokens_start hrows, fun {i g cmd} hg => ?_, fun {i g cmd} hg => ?_,
      fun {i d u g is acc} hg => ?_⟩
    all_goals cases hg
  have hkept : ∀ {evs' : List (Basis.Event Choice TokenCall Expiry)} {cfg' : TokenConfig},
      (exchanging jwt_svc).Along (fun cfg ev => clear_of_revocations cfg ev = true) ⟨w, []⟩ evs' →
      (exchanging jwt_svc).run ⟨w, []⟩ evs' = some cfg' →
      ∃ gs, Protocol.Tracked (rotating jwt_svc.crates) cfg' gs ∧
        SweepsKept jwt_svc.crates rows.length cfg'.shared.db gs := by
    intro evs' cfg' hclear' hrun'
    exact Protocol.run_tracks (rotating_follows jwt_svc)
      (fun w gs => SweepsKept jwt_svc.crates rows.length w.db gs)
      (fun cfg gs ev w' gs' htr hI hC hmv => hI.move htr hC hmv)
      ⟨[], Protocol.tracked_nil _ _, hstart⟩ hclear' hrun'
  refine ⟨fun hcall hissued hs hx hrow hhash => ?_, fun {i d u} hcall hres hlive => ?_⟩
  · obtain ⟨gs, htr, hI⟩ := hkept hclear hrun
    exact hI.unexchanged htr hcall hissued hs hx hrow hhash
  · -- the run up to the event with which the revocation returns, and the rest of it
    obtain ⟨before, ev, after, mid, mid', rfl, hbefore, hno, hnext, hres', hafter⟩ :=
      System.run_first (Q := fun cfg => cfg.result i ≠ none) hrun (fun h => h rfl)
        (by rw [hres]; exact Option.some_ne_none _)
    obtain ⟨hclear₁, hclear₂⟩ := System.along_append hclear hbefore
    obtain ⟨hev, hclear₃⟩ := hclear₂
    rw [hnext] at hclear₃
    obtain ⟨gs, htr, hI⟩ := hkept hclear₁ hbefore
    have hreturned : mid'.result i = some (.done (.ok ())) := by
      obtain ⟨a, ha⟩ := Option.ne_none_iff_exists'.mp hres'
      rw [ha, ← System.run_result hafter ha, hres]
    have hcall' : mid'.call i = some (.revoke_all_user_tokens u) := by
      obtain ⟨th, hth, -⟩ := Option.bind_eq_some_iff.mp hreturned
      have hmid : mid'.call i = some th.call := by simp [Config.call, hth]
      rw [hmid, ← System.run_threads hafter hmid, hcall]
    obtain ⟨gs', htr', hswept⟩ := hI.swept htr hev hnext hcall' (Classical.not_not.mp hno) hreturned
    obtain ⟨gs'', htr'', hend⟩ := Protocol.run_tracks (rotating_follows jwt_svc)
      (fun w gs => AfterSweep jwt_svc.crates rows.length mid'.threads.length u w.db gs)
      (fun cfg gs ev w' gs' htr hI hC hmv => hI.move htr hC hmv) ⟨gs', htr', hswept⟩ hclear₃ hafter
    rw [htr''.calls]
    refine (hend.stems hlive).mono (fun _ _ h => h) (Effect.none : Effect 0 _ _) fun k hk => ?_
    refine ⟨before ++ [ev], after, mid', by simp, ?_, hreturned, hk⟩
    exact System.run_append.mpr ⟨mid, hbefore, System.run_cons.mpr ⟨mid', hnext, rfl⟩⟩

/-- The steps of an UPDATE that revokes one token. -/
def revoking (i : Nat) : List (Basis.Event Choice TokenCall Expiry) :=
  [.step i .go, .step i .go, .step i .go]

/-- Alice's token is exchanged, the successor is revoked, and she logs in and goes on. -/
def revoked_in_between : List (Basis.Event Choice TokenCall Expiry) :=
  .spawn (.refresh ⟨token_of 1⟩) :: start_of_refresh 0 ++
    .spawn (.revoke_all_user_tokens 7) :: rest_of_refresh 0 2 ++ revoking 1 ++
    .spawn (.issue_token_pair 7 "session") :: (drawing 3 ++ [Choice.go]).map (.step 2) ++
    .spawn (.refresh ⟨token_of 3⟩) :: start_of_refresh 3 ++ rest_of_refresh 3 4

theorem revocation_final_for_alice : ∃ cfg,
    (exchanging sample_jwt).run ⟨World.of alices_token, []⟩ revoked_in_between = some cfg ∧
    cfg.result 1 = some (.done (.ok ())) ∧
    cfg.result 3 = some (.pair (.ok ⟨"jwt", token_of 4, 600⟩)) ∧
    RevocationFinal sample_jwt (World.of alices_token) revoked_in_between cfg :=
  ⟨_, rfl, rfl, rfl, revocations_are_final sample_jwt alices_token (World.of alices_token)
    revoked_in_between _ alices_token_distinct rfl (by decide) rfl⟩

/-- A logout between a refresh's SELECT and its DELETE. -/
def logged_out_too_late : List (Basis.Event Choice TokenCall Expiry) :=
  .spawn (.refresh ⟨token_of 1⟩) :: start_of_refresh 0 ++
    .spawn (.logout ⟨token_of 1⟩) :: revoking 1 ++ rest_of_refresh 0 2

/-- A revocation of all of Alice's tokens, started before a refresh commits and ended after that. -/
def revoked_too_early : List (Basis.Event Choice TokenCall Expiry) :=
  .spawn (.refresh ⟨token_of 1⟩) :: start_of_refresh 0 ++
    .spawn (.revoke_all_user_tokens 7) :: .step 1 .go :: rest_of_refresh 0 2 ++
    [.step 1 .go, .step 1 .go]

/-- What stems from an issue needs one. -/
theorem StemsFrom.issue {calls : Nat → Option TokenCall} {t : Table Record} {late : Nat → Prop}
    {d : Nat} (h : StemsFrom calls t late d) :
    ∃ k user_id issuer, calls k = some (.issue_token_pair user_id issuer) := by
  induction h with
  | issued hcall _ _ => exact ⟨_, _, _, hcall⟩
  | exchanged _ _ _ _ ih => exact ih

/-- **Otherwise a successor outlives its token's revocation**, by a logout and by
`revoke_all_user_tokens`. -/
theorem revocations_outlived :
    (∃ cfg, (exchanging sample_jwt).run ⟨World.of alices_token, []⟩ logged_out_too_late = some cfg ∧
      cfg.result 0 = some (.pair (.ok ⟨"jwt", token_of 2, 600⟩)) ∧
      cfg.result 1 = some (.done (.ok ())) ∧
      ¬ RevocationFinal sample_jwt (World.of alices_token) logged_out_too_late cfg) ∧
    ∃ cfg, (exchanging sample_jwt).run ⟨World.of alices_token, []⟩ revoked_too_early = some cfg ∧
      cfg.result 0 = some (.pair (.ok ⟨"jwt", token_of 2, 600⟩)) ∧
      cfg.result 1 = some (.done (.ok ())) ∧
      ¬ RevocationFinal sample_jwt (World.of alices_token) revoked_too_early cfg := by
  refine ⟨⟨_, rfl, rfl, rfl, fun hfinal => ?_⟩, _, rfl, rfl, rfl, fun hfinal => ?_⟩
  · exact hfinal.unexchanged (i := 0) (d := 2) (e := 1) rfl ⟨_, _, rfl, List.mem_cons_self⟩ rfl
      (List.mem_cons_of_mem _ List.mem_cons_self) rfl rfl rfl
  · have hstems := hfinal.swept (i := 1) (d := 2) (u := 7) rfl rfl ⟨_, _, rfl, rfl, rfl, by decide⟩
    obtain ⟨k, user_id, issuer, hcall⟩ := hstems.issue
    rcases k with _ | _ | k <;> cases hcall

end Authnz
