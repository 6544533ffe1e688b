/-
A reset token resets one password once.

Three things make `confirm_password_reset` safe under any interleaving: the `UPDATE`
that claims the reset row looks at `used` again once it has the row's lock, the
claim and the new password hash are committed together, and a call that fails
leaves its transaction to be rolled back.
-/
import Authnz.Model.Sample
import Authnz.Proofs.Passwords

namespace Authnz

open Basis

/-- Call `k` has marked a reset with the presented token used and given its owner the new
password, and has changed nothing else. -/
def ResetDone (c : Crates) (rows : List Record) (db : Table Record) (k : Nat)
    (cmd : ConfirmPasswordResetCmd) (owner : Uuid) : Prop :=
  ∃ a b p u now salt, rows[a]? = some (.password_reset p) ∧
    Redeemable (hash_token c cmd.token) now p = true ∧ p.user_id = owner ∧ u.id = owner ∧
    db.Wrote k a (.password_reset p) (.password_reset p.spent) ∧
    db.Wrote k b (.user u) (.user (u.with_hash_at (c.bcrypt_hash cmd.new_password salt) now)) ∧
    db.WroteOnly k [(a, some (.password_reset p.spent)),
      (b, some (.user (u.with_hash_at (c.bcrypt_hash cmd.new_password salt) now)))]

section Kept

variable {c : Crates} {rows : List Record} {w : World} {gs : List (PasswordGhost c)} {k : Nat}
  {g : PasswordGhost c} {cmd : ConfirmPasswordResetCmd}

theorem PasswordsKept.wroteOnly (hI : PasswordsKept c rows w gs) (hg : gs[k]? = some g)
    (hwrote : ∀ x ∈ g.phase.wrote, ∃ s, w.db[x.1]? = some s ∧ ⟨some k, x.2⟩ ∈ s.versions) :
    w.db.WroteOnly k g.phase.wrote := by
  intro d v
  constructor
  · rintro ⟨s, hs, hv⟩
    obtain ⟨x, hx, hmem⟩ := hI.ledger.written hs hv
    obtain rfl : g = x := Option.some.inj (hg.symm.trans hx)
    exact hmem
  · exact hwrote (d, v)

/-- A reset that has not got to its commit has changed nothing. -/
theorem PasswordsKept.reset_cases (hI : PasswordsKept c rows w gs) (hg : gs[k]? = some g)
    (hcall : g.call = .reset cmd) :
    w.db.WroteOnly k [] ∨ ∃ now acc reset new acc₂, g.phase = .applied now acc reset new acc₂ ∧
      ResetDone c rows w.db k cmd reset.user_id := by
  have hf := hI.facts hg
  have hnone : g.phase.wrote = [] → w.db.WroteOnly k [] := fun h => by
    rw [← h]
    exact hI.wroteOnly hg (by simp [h])
  obtain ⟨call, log, phase⟩ := g
  obtain rfl : call = .reset cmd := hcall
  cases phase with
  | applied now acc reset new acc₂ =>
      obtain ⟨⟨salt, rfl⟩, ⟨p, ⟨hq, a, rfl, hrow, hw⟩, rfl⟩, b, u, rfl, -, hid, hw₂⟩ := hf
      refine .inr ⟨_, _, _, _, _, rfl, a, b, p, u, now, salt, hrow, hq, rfl, hid, hw, hw₂, ?_⟩
      refine hI.wroteOnly hg fun x hx => ?_
      rcases List.mem_cons.mp hx with rfl | hx
      · exact hw.mem
      · obtain rfl := List.mem_singleton.mp hx
        exact hw₂.mem
  | changed hash new acc => exact hf.elim
  | _ => exact .inl (hnone rfl)

/-- Two calls that redeemed the same token are one. -/
theorem PasswordsKept.reset_once (hI : PasswordsKept c rows w gs) (hschema : Schema rows) {i j : Nat}
    {cmd cmd' : ConfirmPasswordResetCmd} {id id' : Uuid}
    (hhash : hash_token c cmd.token = hash_token c cmd'.token)
    (hi : ResetDone c rows w.db i cmd id) (hj : ResetDone c rows w.db j cmd' id') : i = j := by
  obtain ⟨a, _, p, _, _, _, hp, hq, -, -, hw, -, -⟩ := hi
  obtain ⟨a', _, p', _, _, _, hp', hq', -, -, hw', -, -⟩ := hj
  obtain rfl := hschema.reset_hashes hp hp'
    ((redeemable_hash hq).trans (hhash.trans (redeemable_hash hq').symm))
  obtain ⟨s, hs, hv⟩ := hw.mem
  obtain ⟨s', hs', hv'⟩ := hw'.mem
  obtain rfl : s = s' := Option.some.inj (hs.symm.trans hs')
  obtain ⟨r, hr, hslot⟩ := hI.slots hs
  obtain rfl : r = .password_reset p := Option.some.inj (hr.symm.trans hp)
  exact ResetSlot.writer_unique hslot hv hv'

/-! ### A token nobody has redeemed can be redeemed -/

/-- Alone, with nobody holding the reset's row or its owner's, a call with a token that is
neither used nor expired goes through. -/
theorem reset_goes_through (hI : PasswordsKept c rows w gs) (hschema : Schema rows) {a b : Nat}
    {s t : Slot Record} {p : PasswordReset} {u : User} {now : Time} (hs : w.db[a]? = some s)
    (hcur : s.current = some (.password_reset p)) (hlock : s.lock = none)
    (ht : w.db[b]? = some t) (hcur' : t.current = some (.user u)) (hlock' : t.lock = none)
    (howner : u.id = p.user_id) (hp : Redeemable (hash_token c cmd.token) now p = true)
    (hscore : ¬ c.zxcvbn_score cmd.new_password < 3) (me : Nat) :
    ∃ w', Prog.Exec (World.answer c) me (fun _ _ _ => True) ((passwords c).code (.reset cmd)) w
      (.reset (.ok p.user_id)) w' := by
  have hne : a ≠ b := by
    rintro rfl
    obtain rfl : s = t := Option.some.inj (hs.symm.trans ht)
    rw [hcur] at hcur'
    cases hcur'
  have hreset : SqlOp.matching me (password_resets.sel (Redeemable (hash_token c cmd.token) now))
      w.db = [a] := by
    have hmem : a ∈ SqlOp.matching me
        (password_resets.sel (Redeemable (hash_token c cmd.token) now)) w.db :=
      mem_matching.mpr ⟨s, hs, by
        simp [Slot.hits, Slot.view_of_unlocked hlock, hcur, Relation.sel, password_resets, hp]⟩
    obtain ⟨d, hd⟩ := List.length_eq_one_iff.mp (Nat.le_antisymm
      (hI.matching_reset hschema _ now me) (List.length_pos_of_mem hmem))
    rw [hd] at hmem ⊢
    rw [List.mem_singleton.mp hmem]
  have howned : UserAt rows b p.user_id := by
    obtain ⟨r, hr, hslot⟩ := hI.slots ht
    have hview : t.view me = some (.user u) := by rw [Slot.view_of_unlocked hlock', hcur']
    obtain ⟨u₀, rfl, hid⟩ := hslot.of_user hview
    exact ⟨u₀, hr, hid.symm.trans howner⟩
  let w₁ : World := { w with db := w.db.set a (s.hold me (some (.password_reset p.spent))) }
  have hs₁ : w₁.db[b]? = some t := by
    rw [← ht]
    exact List.getElem?_set_ne hne
  have hmatch : SqlOp.matching me (users.sel (UserIs p.user_id)) w₁.db = [b] := by
    rw [← hI.matching_user hschema howned me]
    exact matching_set hs (by
      simp [Slot.hits, Slot.view, Slot.hold, hlock, hcur, Relation.sel, users])
  change ∃ w', Prog.Exec _ _ _ (((UserService.confirm_password_reset c cmd).run >>= _).interp _) w _ w'
  unfold UserService.confirm_password_reset
  simp only [hscore, if_false]
  refine Prog.exists_exec_ask (World.now_goes now w) ?_
  refine Prog.exists_exec_ask (World.begin_goes w) ?_
  refine Prog.exists_exec_ask (World.scan_goes hreset) ?_
  refine Prog.exists_exec_ask (World.visit_goes hs hlock hcur (by exact hp)) ?_
  refine Prog.exists_exec_ask (World.bcrypt_hash_goes cmd.new_password 0 w₁) ?_
  refine Prog.exists_exec_ask (World.scan_goes hmatch) ?_
  refine Prog.exists_exec_ask (World.visit_goes hs₁ hlock' hcur'
    (by simp [users, Relation.sel, howner])) ?_
  refine Prog.exists_exec_ask (World.commit_goes _) ?_
  refine Prog.exists_exec_ask (World.rollback_goes _) ?_
  exact ⟨_, .ret _ _⟩

end Kept

/-! ### Every run -/

/-- Each token resets at most once, at its commit, and a call that fails leaves no trace. -/
structure ResetsSafely (c : Crates) (rows : List Record) (cfg : PasswordConfig) : Prop where
  once : ∀ {i j : Nat} {cmd cmd' : ConfirmPasswordResetCmd} {id id' : Uuid},
    cfg.call i = some (.reset cmd) → cfg.call j = some (.reset cmd') →
    hash_token c cmd.token = hash_token c cmd'.token →
    cfg.result i = some (.reset (.ok id)) → cfg.result j = some (.reset (.ok id')) → i = j
  /-- All of a call's work becomes visible together, or none of it has. -/
  together : ∀ {k : Nat} {cmd : ConfirmPasswordResetCmd}, cfg.call k = some (.reset cmd) →
    cfg.shared.db.WroteOnly k [] ∨ ∃ owner, ResetDone c rows cfg.shared.db k cmd owner
  done : ∀ {k : Nat} {cmd : ConfirmPasswordResetCmd} {owner : Uuid},
    cfg.call k = some (.reset cmd) → cfg.result k = some (.reset (.ok owner)) →
    ResetDone c rows cfg.shared.db k cmd owner
  failed : ∀ {k : Nat} {cmd : ConfirmPasswordResetCmd} {e : AuthError},
    cfg.call k = some (.reset cmd) → cfg.result k = some (.reset (.error e)) →
    cfg.shared.db.WroteOnly k [] ∧ ∀ d v, ¬ cfg.shared.db.Locked k d v
  /-- An unused, unexpired token still resets, once nobody holds its row or its owner's. -/
  usable : ∀ {a b : Nat} {s t : Slot Record} {p : PasswordReset} {u : User} {now : Time}
    {cmd : ConfirmPasswordResetCmd}, cfg.shared.db[a]? = some s →
    s.current = some (.password_reset p) → s.lock = none → cfg.shared.db[b]? = some t →
    t.current = some (.user u) → t.lock = none → u.id = p.user_id →
    Redeemable (hash_token c cmd.token) now p = true → ¬ c.zxcvbn_score cmd.new_password < 3 →
    ∃ (chs : List Choice) (cfg' : PasswordConfig),
      (passwords c).run cfg (.spawn (.reset cmd) :: chs.map (.step cfg.threads.length)) =
        some cfg' ∧ cfg'.result cfg.threads.length = some (.reset (.ok p.user_id))

theorem safely_of_kept {c : Crates} {rows : List Record} (hschema : Schema rows)
    {cfg : PasswordConfig} {gs : List (PasswordGhost c)} (htr : Protocol.Tracked (setting c) cfg gs)
    (hI : PasswordsKept c rows cfg.shared gs) : ResetsSafely c rows cfg := by
  have hghost : ∀ {k cmd}, cfg.call k = some (.reset cmd) → ∀ {r}, cfg.result k = some r →
      ∃ g, gs[k]? = some g ∧ g.call = .reset cmd ∧ (setting c).Final g.call g.phase r := by
    intro k cmd hcall r hres
    obtain ⟨g, hg, hfinal⟩ := htr.final hres
    exact ⟨g, hg, Option.some.inj ((htr.call hg).symm.trans hcall), hfinal⟩
  have hdone : ∀ {k cmd owner}, cfg.call k = some (.reset cmd) →
      cfg.result k = some (.reset (.ok owner)) → ResetDone c rows cfg.shared.db k cmd owner := by
    intro k cmd owner hcall hres
    obtain ⟨g, hg, hcall, now, acc, reset, new, acc₂, hph, rfl⟩ := hghost hcall hres
    rcases hI.reset_cases hg hcall with hnone | ⟨now', acc', reset', new', acc₂', hph', hd⟩
    · have hf := hI.facts hg
      rw [hcall, hph] at hf
      obtain ⟨-, -, b, u, -, -, -, hw⟩ := hf
      exact absurd ((hnone _ _).mp hw.mem) List.not_mem_nil
    · rw [hph] at hph'
      cases hph'
      exact hd
  refine ⟨?_, ?_, hdone, ?_, ?_⟩
  · intro i j cmd cmd' id id' hi hj hhash hri hrj
    exact hI.reset_once hschema hhash (hdone hi hri) (hdone hj hrj)
  · intro k cmd hcall
    obtain ⟨th, hth, hc⟩ := Option.map_eq_some_iff.mp hcall
    obtain ⟨g, hg, hcall', -⟩ := htr.ghost hth
    rcases hI.reset_cases hg (hcall'.trans hc) with hnone | ⟨now, acc, reset, new, acc₂, -, hd⟩
    · exact .inl hnone
    · exact .inr ⟨_, hd⟩
  · intro k cmd e hcall hres
    obtain ⟨g, hg, hcall, hph⟩ := hghost hcall hres
    have hheld : g.phase.held = some [] := by
      rcases hph with hph | hph <;> rw [hph] <;> rfl
    refine ⟨?_, hI.holds_nothing hg hheld⟩
    rcases hI.reset_cases hg hcall with hnone | ⟨now, acc, reset, new, acc₂, hph', -⟩
    · exact hnone
    · rw [hph'] at hph
      rcases hph with hph | hph <;> cases hph
  · intro a b s t p u now cmd hs hcur hlock ht hcur' hlock' howner hp hscore
    obtain ⟨w', hexec⟩ := reset_goes_through hI hschema hs hcur hlock ht hcur' hlock' howner hp
      hscore cfg.threads.length
    have hnew : (cfg.threads ++ [⟨.reset cmd, [], (passwords c).code (.reset cmd)⟩])[
        cfg.threads.length]? = some ⟨.reset cmd, [], (passwords c).code (.reset cmd)⟩ :=
      List.getElem?_concat_length
    obtain ⟨chs, log, hrun⟩ := (passwords c).run_alone hexec hnew
    exact ⟨chs, _, hrun, by simp [Config.result]⟩

/-- **A reset token resets at most once, atomically**, in every run of changes and resets over
any tables the schema allows. -/
theorem reset_once_atomically (c : Crates) (rows : List Record) (hschema : Schema rows) (w : World)
    (hw : w.db = rows.map Slot.loaded) (evs : List (Basis.Event Choice PasswordCall Expiry))
    (cfg : PasswordConfig) (hrun : (passwords c).run ⟨w, []⟩ evs = some cfg) :
    ResetsSafely c rows cfg := by
  obtain ⟨gs, htr, hI⟩ := passwords_kept c hschema hw hrun
  exact safely_of_kept hschema htr hI

/-- One account and one reset for it. -/
def one_reset : List Record :=
  [.user (sample_user "old password"), .password_reset (sample_reset (token_of 1))]

theorem one_reset_schema : Schema one_reset := by
  refine ⟨?_, ?_, ?_⟩
  · intro a b u v ha hb _
    rcases a with _ | _ | a <;> rcases b with _ | _ | b <;> simp_all [one_reset]
  · intro a b p q ha hb _
    rcases a with _ | _ | a <;> rcases b with _ | _ | b <;> simp_all [one_reset]
  · intro a p ha
    rcases a with _ | _ | a
    · simp [one_reset] at ha
    · refine ⟨0, sample_user "old password", rfl, ?_⟩
      simp [one_reset] at ha
      rw [← ha]
      rfl
    · simp [one_reset] at ha

/-- Two calls with the token: the second waits for the row and then finds it used. -/
def two_resets : List (Basis.Event Choice PasswordCall Expiry) :=
  [.spawn (.reset ⟨token_of 1, "first password"⟩), .spawn (.reset ⟨token_of 1, "second password"⟩),
    .step 0 (.time 0), .step 1 (.time 0), .step 0 .go, .step 1 .go, .step 0 .go, .step 1 .go,
    .step 0 .go, .step 0 (.number 0), .step 0 .go, .step 0 .go, .step 0 .go, .step 1 .go,
    .step 1 .go, .step 0 .go]

theorem reset_once_atomically_for_two : ∃ cfg,
    (passwords sample_crates).run ⟨World.of one_reset, []⟩ two_resets = some cfg ∧
      cfg.result 0 = some (.reset (.ok 7)) ∧ cfg.result 1 = some (.reset (.error .InvalidToken)) ∧
      ResetsSafely sample_crates one_reset cfg :=
  ⟨_, rfl, rfl, rfl, reset_once_atomically sample_crates one_reset one_reset_schema
    (World.of one_reset) rfl two_resets _ rfl⟩

end Authnz
