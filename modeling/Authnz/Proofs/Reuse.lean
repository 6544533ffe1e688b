/-
One refresh token, many refreshes.

The DELETE of a refresh may find its row gone: another refresh has deleted it since
this one's SELECT.  The code does not look at how many rows it deleted, so both go on
and both commit a successor.  Where every DELETE still finds its row, a token is
exchanged once, whatever the order of the calls' statements.
-/
import Authnz.Proofs.Exchanges

namespace Authnz

open Basis

/-- Call `i` is a refresh that presents this token. -/
def PresentsToken (cfg : TokenConfig) (i : Nat) (raw : String) : Prop :=
  ∃ cmd, cfg.call i = some (.refresh cmd) ∧ trim cmd.refresh_token = raw

/-- Call `i` has committed a token at place `d`. -/
def HasIssued (t : Table Record) (i d : Nat) : Prop :=
  ∃ s r, t[d]? = some s ∧ ⟨some i, some (.refresh_token r)⟩ ∈ s.versions

/-- A token is good for one exchange. -/
structure ExchangedOnce (c : Crates) (cfg : TokenConfig) (raw : String) : Prop where
  /-- At most one of the refreshes that present it returns `Ok`. -/
  returned : ∀ {i j : Nat} {res res' : JwtResult}, PresentsToken cfg i raw →
    PresentsToken cfg j raw → cfg.result i = some (.pair (.ok res)) →
    cfg.result j = some (.pair (.ok res')) → i = j
  /-- At most one token comes of it. -/
  issued : ∀ {i j d e : Nat}, PresentsToken cfg i raw → PresentsToken cfg j raw →
    HasIssued cfg.shared.db i d → HasIssued cfg.shared.db j e → d = e
  /-- Once another has come of it, it is in the table no more. -/
  spent : ∀ {i d e : Nat} {s : Slot Record} {t : RefreshToken}, PresentsToken cfg i raw →
    HasIssued cfg.shared.db i d → cfg.shared.db[e]? = some s → s.current = some (.refresh_token t) →
    t.token_hash ≠ hash_token c raw

/-- A refresh's DELETE still finds its row, when it starts and when it gets to the row. -/
def finds_its_row (cfg : TokenConfig) : Basis.Event Choice TokenCall Expiry → Bool
  | .step i ch =>
      match cfg.call i, cfg.next i with
      | some (.refresh _), some (.sql (.scan p)) =>
          ch == .fail || !(SqlOp.matching i p cfg.shared.db).isEmpty
      | some (.refresh _), some (.sql (.visit d p _)) =>
          ch == .fail || (cfg.shared.db[d]?).any (Slot.hits i p)
      | _, _ => true
  | _ => true

/-- From its DELETE on, a refresh has a row deleted or one to come. -/
def TokenPhase.Found : TokenPhase → Prop
  | .deleting _ is acc => is ≠ [] ∨ acc ≠ []
  | .unsigned acc | .minting _ acc _ | .put _ acc _ _ | .exchanged _ acc _ _ => acc ≠ []
  | _ => True

section Steps

variable {c : Crates} {cfg : TokenConfig} {cmd : RefreshCmd} {i : Nat} {ch : Choice} {w' : World}

/-- A failed statement finds nothing. -/
theorem scan_not_failed {p : Record → Bool} {w : World} {is : List Nat}
    (h : World.answer c i (.sql (.scan p)) ch w = some (w', Except.ok is)) : ch ≠ .fail := by
  intro hfail
  subst hfail
  cases h

theorem visit_not_failed {d : Nat} {p : Record → Bool} {f : Record → Option Record} {w : World}
    {rows : List Record}
    (h : World.answer c i (.sql (.visit d p f)) ch w = some (w', Except.ok rows)) : ch ≠ .fail := by
  intro hfail
  subst hfail
  cases h

/-- Where the DELETE finds its row, the refresh has it from then on. -/
theorem TokenStep.found {ph ph' : TokenPhase} {o : Op} {r : o.Reply}
    (h : TokenStep c (.refresh cmd) ph o r ph') (hph : ph.Found)
    (hcall : cfg.call i = some (.refresh cmd)) (hnext : cfg.next i = some o)
    (hfinds : finds_its_row cfg (.step i ch) = true)
    (hans : World.answer c i o ch cfg.shared = some (w', r)) : ph'.Found := by
  cases h with
  | @scan _ owner is =>
      simp only [finds_its_row, hcall, hnext] at hfinds
      obtain ⟨-, rfl⟩ := World.answer_scanned hans
      have hne : ¬ (ch == .fail) = true := fun hc => scan_not_failed hans (beq_iff_eq.mp hc)
      refine .inl fun hnil => ?_
      simp [hne, hnil] at hfinds
  | @take _ owner d is acc rows =>
      simp only [finds_its_row, hcall, hnext, take_token] at hfinds
      have hne : ¬ (ch == .fail) = true := fun hc => visit_not_failed hans (beq_iff_eq.mp hc)
      simp only [hne, Bool.false_or] at hfinds
      rcases World.answer_visit hans with ⟨-, hr | ⟨-, hmiss⟩⟩ | ⟨s, a, -, -, -, -, -, hr⟩
      · cases hr
      · cases hs : cfg.shared.db[d]? with
        | none =>
            rw [hs] at hfinds
            cases hfinds
        | some s =>
            rw [hs, Option.any_some, (hmiss s hs).2] at hfinds
            cases hfinds
      · obtain rfl := Except.ok.inj hr
        exact .inr (by simp)
  | sign | sign_fails => exact hph.resolve_left (fun h => h rfl)
  | draw | clock | put | commit | drop_exchanged => exact hph
  | _ => trivial

end Steps

/-- Every refresh that has come past its DELETE has deleted a row. -/
def AllFound {c : Crates} (gs : List (TokenGhost c)) : Prop :=
  ∀ {i : Nat} {g : TokenGhost c} {cmd : RefreshCmd}, gs[i]? = some g → g.call = .refresh cmd →
    g.phase.Found

section Runs

variable {jwt_svc : JwtService} {n : Nat} {cfg : TokenConfig}
  {gs gs' : List (TokenGhost jwt_svc.crates)} {w' : World}

theorem found_move {ev : Basis.Event Choice TokenCall Expiry} (hI : AllFound gs)
    (hfinds : finds_its_row cfg ev = true)
    (hmv : Protocol.Move (exchanging jwt_svc) (rotating jwt_svc.crates) cfg gs ev w' gs') :
    AllFound gs' := by
  intro j g cmd hg hcmd
  cases hmv with
  | spawn call =>
      rcases get_snoc_cases hg with ⟨-, rfl⟩ | hg
      · obtain rfl : call = .refresh cmd := hcmd
        trivial
      · exact hI hg hcmd
  | @step i ch g₀ o s r ph hg₀ hcall hnext hans hstep =>
      rcases get_set_cases hg with ⟨rfl, rfl⟩ | ⟨-, hg⟩
      · have hcmd : g₀.call = .refresh cmd := hcmd
        rw [hcmd] at hcall hstep
        exact hstep.found (hI hg₀ hcmd) hcall hnext hfinds hans
      · exact hI hg hcmd
  | env e => exact hI hg hcmd

/-- Two calls that have deleted rows of one hash are the same call. -/
theorem TokensKept.deletes_once (hI : TokensKept jwt_svc.crates n w'.db gs) {i j : Nat}
    {call call' : TokenCall} {x x' : Nat × Record} {hash : String}
    (h : UsedUp jwt_svc.crates w'.db i call x) (h' : UsedUp jwt_svc.crates w'.db j call' x')
    (hx : token_key x.2 = some hash) (hx' : token_key x'.2 = some hash) : i = j := by
  obtain ⟨y, rest, hs, hrow⟩ := h.row
  obtain ⟨y', rest', hs', hrow'⟩ := h'.row
  have hbears : ∀ {k : Nat} {y : Version Record} {rest : List (Version Record)} {r : Record},
      y.row = some r → Slot.Bears ⟨⟨some k, none⟩ :: y :: rest, none⟩ r := fun hrow =>
    .inl ⟨_, List.mem_cons_of_mem _ List.mem_cons_self, hrow⟩
  have hplace := hI.keyed _ _ _ _ _ _ _ hs hs' (hbears hrow) (hbears hrow') hx hx'
  rw [hplace, hs'] at hs
  injection hs with hs
  injection hs with hs
  injection hs with hs
  injection hs with hs
  exact (Option.some.inj hs).symm

/-- A refresh that has committed a token has ended its exchange with it. -/
theorem TokensKept.issued (hI : TokensKept jwt_svc.crates n w'.db gs) {i d : Nat}
    {g : TokenGhost jwt_svc.crates} {cmd : RefreshCmd} {s : Slot Record} {r : Record}
    (hg : gs[i]? = some g) (hcmd : g.call = .refresh cmd) (hs : w'.db[d]? = some s)
    (hv : ⟨some i, some r⟩ ∈ s.versions) :
    ∃ owner acc raw, g.phase = .exchanged owner acc raw r ∧
      w'.db.WroteOnly i (gone acc ++ [(d, some r)]) := by
  have hf : TokenFacts jwt_svc.crates w'.db i g.call g.phase := hI.journal.facts hg
  have hnone : ∀ {held : Option (List (Nat × Option Record))}, ¬ Tally w'.db i held [] := by
    intro held ht
    cases (ht.written d (some r)).mp ⟨s, hs, hv⟩
  obtain ⟨call, log, ph⟩ := g
  obtain rfl : call = .refresh cmd := hcmd
  cases ph with
  | start | closed | opened | bad | unsigned acc => exact (hnone hf).elim
  | looked rows | found t₀ | owned owner | deleting owner is acc | minting owner acc raw
  | marking is acc | removing is acc => exact (hnone hf.1).elim
  | put owner acc raw row =>
      obtain ⟨⟨e, ht⟩, -⟩ := hf
      exact (hnone ht).elim
  | exchanged owner acc raw row =>
      obtain ⟨⟨e, ht⟩, -⟩ := hf
      rcases List.mem_append.mp ((ht.written d (some r)).mp ⟨s, hs, hv⟩) with hgone | hrow
      · cases (mem_gone.mp hgone).1
      · cases List.mem_singleton.mp hrow
        exact ⟨owner, acc, raw, rfl, ht.written⟩
  | marked acc =>
      obtain ⟨-, ⟨q, hq⟩, -⟩ := hf
      cases hq
  | removed acc => cases (mem_gone.mp ((hf.written d (some r)).mp ⟨s, hs, hv⟩)).1

/-- A refresh that has committed has deleted a row of the hash it looked for. -/
theorem TokensKept.deleted (hI : TokensKept jwt_svc.crates n w'.db gs) (hfound : AllFound gs)
    {i : Nat} {g : TokenGhost jwt_svc.crates} {cmd : RefreshCmd} {owner : Uuid × String}
    {acc : List (Nat × Record)} {raw : String} {row : Record} (hg : gs[i]? = some g)
    (hcmd : g.call = .refresh cmd) (hph : g.phase = .exchanged owner acc raw row) :
    ∃ x ∈ acc, UsedUp jwt_svc.crates w'.db i g.call x ∧
      token_key x.2 = some (cmd.hash jwt_svc.crates) := by
  have hf : TokenFacts jwt_svc.crates w'.db i g.call g.phase := hI.journal.facts hg
  have hacc : g.phase.Found := hfound hg hcmd
  rw [hph] at hf hacc
  obtain ⟨x, hx⟩ := List.exists_mem_of_ne_nil acc hacc
  have hused := hf.2.2.2 x hx
  obtain ⟨cmd', heq, hkey⟩ := hused.key
  rw [hcmd] at heq
  cases heq
  exact ⟨x, hx, hused, hkey⟩

variable {raw : String} {i : Nat}

theorem PresentsToken.ghost (h : PresentsToken cfg i raw)
    (htr : Protocol.Tracked (rotating jwt_svc.crates) cfg gs) :
    ∃ g cmd, gs[i]? = some g ∧ g.call = .refresh cmd ∧
      cmd.hash jwt_svc.crates = hash_token jwt_svc.crates raw := by
  obtain ⟨cmd, hcall, htrim⟩ := h
  obtain ⟨th, hth, hcmd⟩ := Option.map_eq_some_iff.mp hcall
  obtain ⟨g, hg, hgcall, -⟩ := htr.ghost hth
  exact ⟨g, cmd, hg, hgcall.trans hcmd, congrArg (hash_token jwt_svc.crates) htrim⟩

/-- A refresh that has returned `Ok` has deleted its row. -/
theorem PresentsToken.returned (h : PresentsToken cfg i raw)
    (htr : Protocol.Tracked (rotating jwt_svc.crates) cfg gs)
    (hI : TokensKept jwt_svc.crates n cfg.shared.db gs) (hfound : AllFound gs) {res : JwtResult}
    (hres : cfg.result i = some (.pair (.ok res))) :
    ∃ call x, UsedUp jwt_svc.crates cfg.shared.db i call x ∧
      token_key x.2 = some (hash_token jwt_svc.crates raw) := by
  obtain ⟨g, cmd, hg, hcmd, hhash⟩ := h.ghost htr
  obtain ⟨g', hg', owner, acc, row, hph⟩ := htr.final hres
  obtain rfl := Option.some.inj (hg.symm.trans hg')
  obtain ⟨x, -, hused, hkey⟩ := hI.deleted hfound hg hcmd hph
  exact ⟨g.call, x, hused, by rw [hkey, hhash]⟩

/-- So has one that has committed a token, and that token is in one place. -/
theorem PresentsToken.issued (h : PresentsToken cfg i raw)
    (htr : Protocol.Tracked (rotating jwt_svc.crates) cfg gs)
    (hI : TokensKept jwt_svc.crates n cfg.shared.db gs) (hfound : AllFound gs) {d : Nat}
    (hd : HasIssued cfg.shared.db i d) :
    (∃ call x, UsedUp jwt_svc.crates cfg.shared.db i call x ∧
      token_key x.2 = some (hash_token jwt_svc.crates raw)) ∧
    ∀ {e : Nat}, HasIssued cfg.shared.db i e → d = e := by
  obtain ⟨g, cmd, hg, hcmd, hhash⟩ := h.ghost htr
  obtain ⟨s, t, hs, hv⟩ := hd
  obtain ⟨owner, acc, drawn, hph, hwrote⟩ := hI.issued hg hcmd hs hv
  refine ⟨?_, fun {e} he => ?_⟩
  · obtain ⟨x, -, hused, hkey⟩ := hI.deleted hfound hg hcmd hph
    exact ⟨g.call, x, hused, by rw [hkey, hhash]⟩
  · obtain ⟨s', t', hs', hv'⟩ := he
    rcases List.mem_append.mp ((hwrote e _).mp ⟨s', hs', hv'⟩) with hgone | hrow
    · cases (mem_gone.mp hgone).1
    · exact (Prod.mk.inj (List.mem_singleton.mp hrow)).1.symm

/-- What the books say of one token. -/
theorem exchanged_once_of_kept (htr : Protocol.Tracked (rotating jwt_svc.crates) cfg gs)
    (hI : TokensKept jwt_svc.crates n cfg.shared.db gs) (hfound : AllFound gs) (raw : String) :
    ExchangedOnce jwt_svc.crates cfg raw := by
  refine ⟨fun hi hj hres hres' => ?_, fun hi hj hd he => ?_, fun hi hd hs hcur hhash => ?_⟩
  · obtain ⟨call, x, hused, hx⟩ := hi.returned htr hI hfound hres
    obtain ⟨call', x', hused', hx'⟩ := hj.returned htr hI hfound hres'
    exact hI.deletes_once hused hused' hx hx'
  · obtain ⟨⟨call, x, hused, hx⟩, hplace⟩ := hi.issued htr hI hfound hd
    obtain ⟨⟨call', x', hused', hx'⟩, -⟩ := hj.issued htr hI hfound he
    obtain rfl := hI.deletes_once hused hused' hx hx'
    exact hplace he
  · obtain ⟨⟨call, x, hused, hx⟩, -⟩ := hi.issued htr hI hfound hd
    obtain ⟨y, rest, hs', hrow⟩ := hused.row
    have hplace := hI.keyed _ _ _ _ _ _ _ hs hs' (Slot.bears_of_current hcur)
      (.inl ⟨y, List.mem_cons_of_mem _ List.mem_cons_self, hrow⟩)
      (congrArg some hhash) hx
    rw [hplace, hs'] at hs
    cases hs
    cases hcur

end Runs

/-- **A refresh token is exchanged once**, in every run in which each refresh's DELETE still finds
its row and each new token's hash is new. -/
theorem tokens_exchanged_once (jwt_svc : JwtService) (rows : List Record) (w : World)
    (evs : List (Basis.Event Choice TokenCall Expiry)) (cfg : TokenConfig)
    (hrows : DistinctHashes rows) (hdb : w.db = rows.map Slot.loaded)
    (hfinds : (exchanging jwt_svc).Along
      (fun cfg ev => new_hash cfg ev = true ∧ finds_its_row cfg ev = true) ⟨w, []⟩ evs)
    (hrun : (exchanging jwt_svc).run ⟨w, []⟩ evs = some cfg) (raw : String) :
    ExchangedOnce jwt_svc.crates cfg raw := by
  obtain ⟨gs, htr, hI, hfound⟩ := Protocol.run_tracks (rotating_follows jwt_svc)
    (fun w gs => TokensKept jwt_svc.crates rows.length w.db gs ∧ AllFound gs)
    (fun cfg gs ev w' gs' _ hI hC hmv =>
      ⟨tokens_move hI.1 hC.1 hmv, found_move hI.2 hC.2 hmv⟩)
    ⟨[], Protocol.tracked_nil _ _, hdb ▸ tokens_start hrows, fun {i g cmd} hg => by cases hg⟩
    hfinds hrun
  exact exchanged_once_of_kept htr hI hfound raw

/-- Alice, and one refresh token of hers. -/
def alices_token : List Record :=
  [.user (sample_user "password"), .refresh_token (sample_token (token_of 1))]

theorem alices_token_distinct : DistinctHashes alices_token := by
  intro d e r r' hash hd he hr hr'
  rcases d with _ | _ | d <;> rcases e with _ | _ | e <;> cases hd <;> cases he
  · cases hr
  · cases hr
  · cases hr'
  · rfl

/-- The steps of a refresh, from the DELETE's second one to the end. -/
def rest_of_refresh (i : Nat) (b : UInt8) : List (Basis.Event Choice TokenCall Expiry) :=
  (Choice.go :: drawing b ++ [Choice.go, .go]).map (.step i)

/-- The steps of a refresh up to there. -/
def start_of_refresh (i : Nat) : List (Basis.Event Choice TokenCall Expiry) :=
  [.step i .go, .step i .go, .step i (.time 0), .step i .go, .step i .go]

/-- The second refresh opens its transaction early and looks for the token late. -/
def refreshes_in_turn : List (Basis.Event Choice TokenCall Expiry) :=
  [.spawn (.refresh ⟨token_of 1⟩), .spawn (.refresh ⟨token_of 1⟩), .step 1 .go] ++
    start_of_refresh 0 ++ rest_of_refresh 0 2 ++ [.step 1 .go, .step 1 .go]

theorem alices_token_exchanged_once : ∃ cfg,
    (exchanging sample_jwt).run ⟨World.of alices_token, []⟩ refreshes_in_turn = some cfg ∧
    cfg.result 0 = some (.pair (.ok ⟨"jwt", token_of 2, 600⟩)) ∧
    cfg.result 1 = some (.pair (.error .RefreshTokenNotFound)) ∧
    ExchangedOnce sample_crates cfg (token_of 1) := by
  exact ⟨_, rfl, rfl, rfl, tokens_exchanged_once sample_jwt alices_token (World.of alices_token)
    refreshes_in_turn _ alices_token_distinct rfl (by decide) rfl (token_of 1)⟩

/-- Both refreshes find the token and start the DELETE before either has deleted it. -/
def refreshes_at_once : List (Basis.Event Choice TokenCall Expiry) :=
  [.spawn (.refresh ⟨token_of 1⟩), .spawn (.refresh ⟨token_of 1⟩)] ++ start_of_refresh 0 ++
    start_of_refresh 1 ++ rest_of_refresh 0 2 ++ rest_of_refresh 1 3

/-- **Without that condition one token is exchanged twice**, for two tokens that both live. -/
theorem alices_token_exchanged_twice : ∃ cfg,
    (exchanging sample_jwt).Along (fun cfg ev => new_hash cfg ev = true)
      ⟨World.of alices_token, []⟩ refreshes_at_once ∧
    (exchanging sample_jwt).run ⟨World.of alices_token, []⟩ refreshes_at_once = some cfg ∧
    cfg.result 0 = some (.pair (.ok ⟨"jwt", token_of 2, 600⟩)) ∧
    cfg.result 1 = some (.pair (.ok ⟨"jwt", token_of 3, 600⟩)) ∧
    (cfg.shared.rows refresh_tokens).map (·.token_hash) =
      [hash_token sample_crates (token_of 2), hash_token sample_crates (token_of 3)] ∧
    ¬ ExchangedOnce sample_crates cfg (token_of 1) := by
  refine ⟨_, by decide, rfl, rfl, rfl, rfl, fun honce => ?_⟩
  have hij := honce.returned (i := 0) (j := 1) ⟨_, rfl, rfl⟩ ⟨_, rfl, rfl⟩ rfl rfl
  cases hij

end Authnz
