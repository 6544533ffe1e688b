/-
A password is changed against the password in force.

`change_password` verifies against a hash it has read and then updates the row
whatever the row holds by then.  So the password a change replaces is the one it was
shown exactly as long as nobody commits another one for the account in between;
`passwords_in_force` proves it under that condition, for every run, and `overtaken` is
the run without it.
-/
import Authnz.Model.Sample
import Authnz.Proofs.Passwords

namespace Authnz

open Basis

/-! ### The condition -/

/-- A change for the account of `u` that is past its `SELECT` and has not taken the row yet, and
whose current password is not the one `u` has. -/
def relies_on_another (c : Crates) (u : User) : PasswordCall → Op → Bool
  | .change cmd, .bcrypt_hash _ => cmd.user_id == u.id &&
      !(c.bcrypt_verify cmd.current_password u.password_hash == some true)
  | .change cmd, .sql (.scan _) => cmd.user_id == u.id &&
      !(c.bcrypt_verify cmd.current_password u.password_hash == some true)
  | .change cmd, .sql (.visit _ _ _) => cmd.user_id == u.id &&
      !(c.bcrypt_verify cmd.current_password u.password_hash == some true)
  | _, _ => false

/-- A call commits a password only while no change that has verified another one is waiting to
update the row. -/
def not_overtaken (c : Crates) (cfg : PasswordConfig) (ev : Basis.Event Choice PasswordCall Expiry) :
    Bool :=
  match ev with
  | .step k _ =>
      match cfg.next k with
      | some (.sql .commit) => cfg.shared.db.all fun s => match s.lock with
          | some (t, some (.user u)) => t != k || nobody_about cfg (relies_on_another c u)
          | _ => true
      | _ => true
  | _ => true

/-! ### What it keeps -/

/-- The account's password is the one the change has proved. -/
def InForce (c : Crates) (db : Table Record) (cmd : ChangePasswordCmd) : Prop :=
  ∀ (d : Nat) (s : Slot Record) (u : User), db[d]? = some s → s.current = some (.user u) →
    u.id = cmd.user_id → c.bcrypt_verify cmd.current_password u.password_hash = some true

/-- What a change has proved is still so while it has not committed. -/
def Proved (c : Crates) (db : Table Record) (cmd : ChangePasswordCmd) : PasswordPhase → Prop
  | .looked rows => Rejected c cmd rows ∨ InForce c db cmd
  | .hashed _ _ => InForce c db cmd
  | .writing _ _ _ _ => InForce c db cmd
  | _ => True

/-- Whatever call `k` committed lies on top of a password its command matches. -/
def OnTop (c : Crates) (db : Table Record) (k : Nat) (cmd : ChangePasswordCmd) : Prop :=
  ∀ (d : Nat) (s : Slot Record) (pre post : List (Version Record)) (new old : Option Record)
    (w : Option Nat), db[d]? = some s →
    s.versions = pre ++ ⟨some k, new⟩ :: ⟨w, old⟩ :: post →
    ∃ u, old = some (.user u) ∧ u.id = cmd.user_id ∧
      c.bcrypt_verify cmd.current_password u.password_hash = some true

structure ChangesKept (c : Crates) (db : Table Record) (gs : List (PasswordGhost c)) : Prop where
  proved : ∀ {k : Nat} {g : PasswordGhost c} {cmd : ChangePasswordCmd}, gs[k]? = some g →
    g.call = .change cmd → Proved c db cmd g.phase
  on_top : ∀ {k : Nat} {g : PasswordGhost c} {cmd : ChangePasswordCmd}, gs[k]? = some g →
    g.call = .change cmd → OnTop c db k cmd
  rooted : ∀ {d : Nat} {s : Slot Record}, db[d]? = some s → s.Rooted

section Steps

variable {c : Crates} {rows : List Record} {db db' : Table Record} {cmd : ChangePasswordCmd}
  {me k : Nat}

theorem InForce.of_versions (h : InForce c db cmd)
    (hv : ∀ {d : Nat} {s' : Slot Record}, db'[d]? = some s' →
      s'.versions = [] ∨ ∃ s, db[d]? = some s ∧ s'.versions = s.versions) : InForce c db' cmd := by
  intro d s' u hs' hc hid
  rcases hv hs' with hnil | ⟨s, hs, heq⟩
  · simp [Slot.current, hnil] at hc
  · exact h d s u hs ((Slot.current_of_versions heq).symm.trans hc) hid

theorem InForce.commit (h : InForce c db cmd)
    (hnew : ∀ {d : Nat} {s : Slot Record} {u : User}, db[d]? = some s →
      s.lock = some (me, some (.user u)) → u.id = cmd.user_id →
      c.bcrypt_verify cmd.current_password u.password_hash = some true) :
    InForce c (db.map (Slot.commit me)) cmd := by
  intro d s' u hs' hc hid
  rw [List.getElem?_map] at hs'
  obtain ⟨s, hs, rfl⟩ := Option.map_eq_some_iff.mp hs'
  by_cases hown : ∃ v, s.lock = some (me, v)
  · obtain ⟨v, hv⟩ := hown
    rw [Slot.commit_of_own hv] at hc
    obtain rfl : v = some (.user u) := hc
    exact hnew hs hv hid
  · rw [Slot.commit_of_not_own fun v hv => hown ⟨v, hv⟩] at hc
    exact h d s u hs hc hid

theorem OnTop.of_versions (h : OnTop c db k cmd)
    (hv : ∀ {d : Nat} {s' : Slot Record}, db'[d]? = some s' →
      s'.versions = [] ∨ ∃ s, db[d]? = some s ∧ s'.versions = s.versions) :
    OnTop c db' k cmd := by
  intro d s' pre post new old x hs' he
  rcases hv hs' with hnil | ⟨s, hs, heq⟩
  · simp [hnil] at he
  · exact h _ _ _ _ _ _ _ hs (heq.symm.trans he)

theorem OnTop.commit (h : OnTop c db k cmd)
    (hnew : k = me → ∀ {d : Nat} {s : Slot Record} {v : Option Record}, db[d]? = some s →
      s.lock = some (me, v) → ∃ u, s.current = some (.user u) ∧ u.id = cmd.user_id ∧
        c.bcrypt_verify cmd.current_password u.password_hash = some true) :
    OnTop c (db.map (Slot.commit me)) k cmd := by
  intro d s' pre post new old x hs' he
  rw [List.getElem?_map] at hs'
  obtain ⟨s, hs, rfl⟩ := Option.map_eq_some_iff.mp hs'
  by_cases hown : ∃ v, s.lock = some (me, v)
  · obtain ⟨v, hv⟩ := hown
    rw [Slot.commit_of_own hv] at he
    cases pre with
    | nil =>
        obtain ⟨hhead, hvs⟩ := List.cons.inj he
        obtain ⟨hk, -⟩ := Version.mk.inj hhead
        obtain ⟨u, hc, hu⟩ := hnew (Option.some.inj hk).symm hs hv
        refine ⟨u, ?_, hu⟩
        rw [← hc, Slot.current, hvs]
        rfl
    | cons y pre => exact h _ _ _ _ _ _ _ hs (List.cons.inj he).2
  · rw [Slot.commit_of_not_own fun v hv => hown ⟨v, hv⟩] at he
    exact h _ _ _ _ _ _ _ hs he

variable {cfg : PasswordConfig} {gs : List (PasswordGhost c)} {g : PasswordGhost c} {ch : Choice}
  {o : Op} {r : o.Reply} {ph : PasswordPhase} {w' : World}

/-- An account has one row. -/
theorem PasswordsKept.user_row (hI : PasswordsKept c rows cfg.shared gs) (hschema : Schema rows)
    {a b : Nat} {s t : Slot Record} {u v : User} (hs : cfg.shared.db[a]? = some s)
    (hu : s.current = some (.user u) ∨ s.view me = some (.user u))
    (ht : cfg.shared.db[b]? = some t)
    (hv : t.current = some (.user v)) (hid : u.id = v.id) : a = b := by
  obtain ⟨r, hr, hslot⟩ := hI.slots hs
  obtain ⟨r', hr', hslot'⟩ := hI.slots ht
  obtain ⟨u₀, rfl, hid₀⟩ := hu.elim hslot.of_current hslot.of_user
  obtain ⟨v₀, rfl, hid₀'⟩ := hslot'.of_current hv
  exact hschema.user_ids hr hr' (hid₀.symm.trans (hid.trans hid₀'))

/-- The password a change relies on is not replaced under it. -/
theorem proved_by_commit (htr : Protocol.Tracked (setting c) cfg gs)
    (hI : PasswordsKept c rows cfg.shared gs) (hschema : Schema rows)
    (hcond : not_overtaken c cfg (.step k ch) = true) (hnext : cfg.next k = some (.sql .commit))
    {j : Nat} (hj : gs[j]? = some g) (hcall : g.call = .change cmd) (hjk : j ≠ k)
    (hph : (∃ l, g.phase = .looked l ∧ ¬ Rejected c cmd l) ∨ (∃ hash new, g.phase = .hashed hash new) ∨
      ∃ hash new is acc, g.phase = .writing hash new is acc)
    {d : Nat} {s : Slot Record} {u : User} (hs : cfg.shared.db[d]? = some s)
    (hl : s.lock = some (k, some (.user u))) (hid : u.id = cmd.user_id) :
    c.bcrypt_verify cmd.current_password u.password_hash = some true := by
  have hnobody : nobody_about cfg (relies_on_another c u) = true := by
    simp only [not_overtaken, hnext, List.all_eq_true] at hcond
    simpa [hl] using hcond s (List.mem_of_getElem? hs)
  have hwindow : (∀ a, ¬ (setting c).Final g.call g.phase a) →
      (∀ o r ph, PasswordStep c (.change cmd) g.phase o r ph →
        relies_on_another c u (.change cmd) o = (cmd.user_id == u.id &&
          !(c.bcrypt_verify cmd.current_password u.password_hash == some true))) →
      c.bcrypt_verify cmd.current_password u.password_hash = some true := by
    intro hfinal hask
    obtain ⟨th, hth, hcall', o, r, ph, ho, hstep⟩ := htr.asking hj hfinal
    have hno := nobody_about_iff.mp hnobody th hth o ho
    rw [hcall', hcall] at hno
    rw [hcall] at hstep
    rw [hask o r ph hstep] at hno
    simpa [hid] using hno
  have hf := hI.facts hj
  rw [hcall] at hf
  rcases hph with ⟨l, hph, hrej⟩ | ⟨hash, new, hph⟩ | ⟨hash, new, is, acc, hph⟩
  · refine hwindow ?_ ?_
    · rw [hph, hcall]
      rintro (⟨e | a⟩ | ⟨e | a⟩) <;> simp_all
    · rw [hph]
      intro o r ph hstep
      cases hstep <;> rfl
  · refine hwindow ?_ ?_
    · rw [hph, hcall]
      rintro (⟨e | a⟩ | ⟨e | a⟩) <;> simp
    · rw [hph]
      intro o r ph hstep
      cases hstep <;> rfl
  · rw [hph] at hf
    obtain ⟨-, ⟨rfl, b, rfl, -⟩ | ⟨rfl, b, v, rfl, -, hid', t, ht, hl', hc⟩⟩ := hf
    · refine hwindow ?_ ?_
      · rw [hph, hcall]
        rintro (⟨e | a⟩ | ⟨e | a⟩) <;> simp
      · rw [hph]
        intro o r ph hstep
        cases hstep <;> rfl
    · -- the change holds the row, so nobody else does
      obtain rfl := hI.user_row hschema hs (.inr (Slot.view_of_own hl)) ht hc (hid.trans hid'.symm)
      obtain rfl : s = t := Option.some.inj (hs.symm.trans ht)
      rw [hl] at hl'
      cases hl'
      exact absurd rfl hjk

/-- What a change has proved, one step later: the change's own step. -/
theorem Proved.step (hI : PasswordsKept c rows cfg.shared gs) (hschema : Schema rows)
    (hk : gs[k]? = some g) (hans : World.answer c k o ch cfg.shared = some (w', r))
    (hstep : PasswordStep c (.change cmd) g.phase o r ph)
    (h : Proved c cfg.shared.db cmd g.phase)
    (hv : ∀ {d : Nat} {s' : Slot Record}, w'.db[d]? = some s' → s'.versions = [] ∨
      ∃ s, cfg.shared.db[d]? = some s ∧ s'.versions = s.versions) : Proved c w'.db cmd ph := by
  obtain ⟨call, log, phase⟩ := g
  cases hstep with
  | read =>
      rename_i l
      by_cases hrej : Rejected c cmd l
      · exact .inl hrej
      right
      unfold Rejected at hrej
      push Not at hrej
      obtain ⟨u, us, hus, hver⟩ := hrej
      obtain ⟨rfl, hr⟩ := World.answer_select hans
      rcases hr with hr | hr
      · obtain rfl := Except.ok.inj hr
        obtain ⟨b, s, hs, hview, -, hid⟩ := hI.user_of_select hus
        have hcur : s.current = some (.user u) := by
          cases hl : s.lock with
          | none => rwa [Slot.view_of_unlocked hl] at hview
          | some l =>
              obtain ⟨t, v⟩ := l
              by_cases ht : t = k
              · subst ht
                exact absurd ⟨s, hs, hl⟩ (hI.holds_nothing hk rfl b v)
              · rwa [Slot.view_of_other hl ht] at hview
        intro d s' u' hs' hc' hid'
        have hsees : s'.current = some (.user u') ∨ s'.view 0 = some (.user u') := .inl hc'
        obtain rfl := hI.user_row hschema hs' hsees hs hcur (hid'.trans hid.symm)
        obtain rfl : s' = s := Option.some.inj (hs'.symm.trans hs)
        obtain rfl : u' = u := by simpa using hc'.symm.trans hcur
        exact hver
      · cases hr
  | hash hrows hver =>
      rcases h with h | h
      · exact absurd hver (h _ _ hrows)
      · exact h.of_versions hv
  | scan | visit => exact InForce.of_versions h hv
  | _ => trivial

/-- One step keeps it, if nobody's password is replaced under a change that relies on it. -/
theorem ChangesKept.step (h : ChangesKept c cfg.shared.db gs)
    (htr : Protocol.Tracked (setting c) cfg gs) (hI : PasswordsKept c rows cfg.shared gs)
    (hschema : Schema rows) (hcond : not_overtaken c cfg (.step k ch) = true)
    (hk : gs[k]? = some g) (hnext : cfg.next k = some o)
    (hans : World.answer c k o ch cfg.shared = some (w', r))
    (hstep : PasswordStep c g.call g.phase o r ph) :
    ChangesKept c w'.db (gs.set k ⟨g.call, ⟨o, r⟩ :: g.log, ph⟩) := by
  rcases hstep.part.versions hans with ⟨rfl, hdb⟩ | hv
  · rw [hdb]
    refine ⟨?_, ?_, ?_⟩
    · intro j x cmd hj hcall
      rcases get_set_cases hj with ⟨rfl, rfl⟩ | ⟨hjk, hj⟩
      · obtain ⟨call, log, phase⟩ := g
        cases hstep <;> trivial
      · have hp := h.proved hj hcall
        obtain ⟨call, log, phase⟩ := x
        cases phase with
        | looked l =>
            by_cases hrej : Rejected c cmd l
            · exact .inl hrej
            · exact .inr ((hp.resolve_left hrej).commit (proved_by_commit htr hI hschema hcond hnext
                hj hcall hjk (.inl ⟨l, rfl, hrej⟩)))
        | hashed hash new =>
            exact InForce.commit hp (proved_by_commit htr hI hschema hcond hnext hj hcall hjk
              (.inr (.inl ⟨hash, new, rfl⟩)))
        | writing hash new is acc =>
            exact InForce.commit hp (proved_by_commit htr hI hschema hcond hnext hj hcall hjk
              (.inr (.inr ⟨hash, new, is, acc, rfl⟩)))
        | _ => trivial
    · intro j x cmd hj hcall
      rcases get_set_cases hj with ⟨rfl, rfl⟩ | ⟨hjk, hj⟩
      · refine (h.on_top hk hcall).commit fun _ {d s v} hs hl => ?_
        have hp := h.proved hk hcall
        have hf := hI.facts hk
        obtain ⟨call, log, phase⟩ := g
        obtain rfl : call = .change cmd := hcall
        cases hstep with
        | commit | commit_fails =>
            obtain ⟨-, ⟨-, b, hb, -⟩ | ⟨-, b, u, rfl, -, hid, t, ht, hl', hc⟩⟩ := hf
            · cases hb
            · have hmem := (hI.ledger.holds hk rfl d v).mp ⟨s, hs, hl⟩
              obtain ⟨rfl, rfl⟩ := Prod.mk.inj (List.mem_singleton.mp hmem)
              obtain rfl : s = t := Option.some.inj (hs.symm.trans ht)
              exact ⟨u, hc, hid, hp _ _ _ hs hc hid⟩
      · exact (h.on_top hj hcall).commit fun hjk' => absurd hjk' hjk
    · intro d s' hs'
      rw [List.getElem?_map] at hs'
      obtain ⟨s, hs, rfl⟩ := Option.map_eq_some_iff.mp hs'
      exact (h.rooted hs).commit k
  · refine ⟨?_, ?_, ?_⟩
    · intro j x cmd hj hcall
      rcases get_set_cases hj with ⟨rfl, rfl⟩ | ⟨hjk, hj⟩
      · have hc : g.call = .change cmd := hcall
        rw [hc] at hstep
        exact Proved.step hI hschema hk hans hstep (h.proved hk hc) hv
      · have hp := h.proved hj hcall
        obtain ⟨call, log, phase⟩ := x
        cases phase with
        | looked l => exact hp.imp_right fun hp => hp.of_versions hv
        | hashed | writing => exact InForce.of_versions hp hv
        | _ => trivial
    · intro j x cmd hj hcall
      rcases get_set_cases hj with ⟨rfl, rfl⟩ | ⟨hjk, hj⟩
      · exact (h.on_top hk hcall).of_versions hv
      · exact (h.on_top hj hcall).of_versions hv
    · intro d s' hs'
      rcases hv hs' with hnil | ⟨s, hs, heq⟩
      · intro pre post v he
        simp [hnil] at he
      · exact (h.rooted hs).of_versions heq

theorem ChangesKept.spawn (h : ChangesKept c db gs) (call : PasswordCall)
    (hknown : ∀ {d k : Nat} {s : Slot Record} {v : Option Record}, db[d]? = some s →
      ⟨some k, v⟩ ∈ s.versions → k < gs.length) :
    ChangesKept c db (gs ++ [⟨call, [], .start⟩]) := by
  refine ⟨?_, ?_, h.rooted⟩
  · intro k g cmd hk hcall
    rcases get_snoc_cases hk with ⟨-, rfl⟩ | hk
    · trivial
    · exact h.proved hk hcall
  · intro k g cmd hk hcall
    rcases get_snoc_cases hk with ⟨rfl, rfl⟩ | hk
    · intro d s pre post new old x hs he
      have hmem : (⟨some gs.length, new⟩ : Version Record) ∈ s.versions := by simp [he]
      exact absurd (hknown hs hmem) (Nat.lt_irrefl _)
    · exact h.on_top hk hcall

end Steps

/-! ### Every run -/

/-- Every change that went through was checked against the password it replaced. -/
structure ChangesInForce (c : Crates) (cfg : PasswordConfig) : Prop where
  done : ∀ {k : Nat} {cmd : ChangePasswordCmd}, cfg.call k = some (.change cmd) →
    cfg.result k = some (.changed (.ok ())) →
    ∃ d u salt, u.id = cmd.user_id ∧
      c.bcrypt_verify cmd.current_password u.password_hash = some true ∧
      cfg.shared.db.Wrote k d (.user u) (.user (u.with_hash (c.bcrypt_hash cmd.new_password salt)))
  /-- What lies under a change, written by a reset or by another change, matches its current
  password; so a reset is not overwritten by a change that proved an older one. -/
  on_top : ∀ {k : Nat} {cmd : ChangePasswordCmd}, cfg.call k = some (.change cmd) →
    OnTop c cfg.shared.db k cmd
  /-- Of the changes that proved one password one at most succeeded, unless somebody set that
  password again. -/
  once : ∀ {i j : Nat} {cmd cmd' : ChangePasswordCmd}, cfg.call i = some (.change cmd) →
    cfg.call j = some (.change cmd') → cmd.user_id = cmd'.user_id →
    cmd.current_password = cmd'.current_password →
    (∀ (d k : Nat) (s : Slot Record) (u : User), cfg.shared.db[d]? = some s →
      ⟨some k, some (.user u)⟩ ∈ s.versions → u.id = cmd.user_id →
      c.bcrypt_verify cmd.current_password u.password_hash ≠ some true) →
    cfg.result i = some (.changed (.ok ())) → cfg.result j = some (.changed (.ok ())) → i = j

section Kept

variable {c : Crates} {rows : List Record} {cfg : PasswordConfig} {gs : List (PasswordGhost c)}
  {k : Nat} {cmd : ChangePasswordCmd}

theorem updated_of_kept (htr : Protocol.Tracked (setting c) cfg gs)
    (hI : PasswordsKept c rows cfg.shared gs) (hcall : cfg.call k = some (.change cmd))
    (hres : cfg.result k = some (.changed (.ok ()))) :
    ∃ d u salt, UserAt rows d cmd.user_id ∧ u.id = cmd.user_id ∧ cfg.shared.db.Wrote k d (.user u)
      (.user (u.with_hash (c.bcrypt_hash cmd.new_password salt))) := by
  obtain ⟨g, hg, hash, new, acc, hph⟩ := htr.final hres
  have hf := hI.facts hg
  rw [Option.some.inj ((htr.call hg).symm.trans hcall), hph] at hf
  obtain ⟨⟨salt, rfl⟩, d, u, -, hat, hid, hw⟩ := hf
  exact ⟨d, u, salt, hat, hid, hw⟩

/-- A change that found the password as nobody in this run has set it was the first. -/
theorem Rooted.first {s : Slot Record} (h : s.Rooted) {i j : Nat} {a b x y : Option Record}
    {pre pre' post post' : List (Version Record)}
    (hi : s.versions = pre ++ ⟨some i, a⟩ :: ⟨none, x⟩ :: post)
    (hj : s.versions = pre' ++ ⟨some j, b⟩ :: ⟨none, y⟩ :: post') : i = j := by
  obtain rfl : post = [] := h (pre ++ [⟨some i, a⟩]) post x (by rw [hi, List.append_assoc]; rfl)
  obtain rfl : post' = [] := h (pre' ++ [⟨some j, b⟩]) post' y (by rw [hj, List.append_assoc]; rfl)
  have hlast := (List.append_inj' (hi.symm.trans hj) rfl).2
  exact Option.some.inj (Version.mk.inj (List.cons.inj hlast).1).1

theorem in_force_of_kept (htr : Protocol.Tracked (setting c) cfg gs) (hschema : Schema rows)
    (hI : PasswordsKept c rows cfg.shared gs) (h : ChangesKept c cfg.shared.db gs) :
    ChangesInForce c cfg := by
  have hon_top : ∀ {k cmd}, cfg.call k = some (.change cmd) → OnTop c cfg.shared.db k cmd := by
    intro k cmd hcall
    obtain ⟨th, hth, hc⟩ := Option.map_eq_some_iff.mp hcall
    obtain ⟨g, hg, hcall', -⟩ := htr.ghost hth
    exact h.on_top hg (hcall'.trans hc)
  refine ⟨?_, hon_top, ?_⟩
  · intro k cmd hcall hres
    obtain ⟨d, u, salt, -, hid, hw⟩ := updated_of_kept htr hI hcall hres
    refine ⟨d, u, salt, hid, ?_, hw⟩
    obtain ⟨s, pre, x, post, hs, hv⟩ := hw
    obtain ⟨u', hu, -, hver⟩ := hon_top hcall _ _ _ _ _ _ _ hs hv
    cases hu
    exact hver
  · intro i j cmd cmd' hi hj hid hcur hunset hri hrj
    obtain ⟨d, u, salt, ⟨u₀, hu₀, hid₀⟩, -, s, pre, x, post, hs, hv⟩ := updated_of_kept htr hI hi hri
    obtain ⟨d', u', salt', ⟨u₁, hu₁, hid₁⟩, -, s', pre', x', post', hs', hv'⟩ :=
      updated_of_kept htr hI hj hrj
    obtain rfl := hschema.user_ids hu₀ hu₁ (hid₀.trans (hid.trans hid₁.symm))
    obtain rfl : s = s' := Option.some.inj (hs.symm.trans hs')
    have hroot : ∀ {k : Nat} {cmd'' pre new x v post}, cfg.call k = some (.change cmd'') →
        cmd''.user_id = cmd.user_id → cmd''.current_password = cmd.current_password →
        s.versions = pre ++ ⟨some k, new⟩ :: ⟨x, some (.user v)⟩ :: post → x = none := by
      intro k cmd'' pre new x v post hcall hid' hcur' hvs
      obtain ⟨v', hv', hidv, hver⟩ := hon_top hcall _ _ _ _ _ _ _ hs hvs
      cases hv'
      cases x with
      | none => rfl
      | some t =>
          rw [hcur'] at hver
          exact absurd hver (hunset d t s v hs (by simp [hvs]) (hidv.trans hid'))
    obtain rfl := hroot hi rfl rfl hv
    obtain rfl := hroot hj hid.symm hcur.symm hv'
    exact Rooted.first (h.rooted hs) hv hv'

end Kept

/-- **A password is only ever changed against the password in force**, in every run in which no
password is committed under a change that relies on another one. -/
theorem passwords_in_force (c : Crates) (rows : List Record) (hschema : Schema rows) (w : World)
    (hw : w.db = rows.map Slot.loaded) (evs : List (Basis.Event Choice PasswordCall Expiry))
    (cfg : PasswordConfig)
    (hcond : (passwords c).Along (fun cfg ev => not_overtaken c cfg ev = true) ⟨w, []⟩ evs)
    (hrun : (passwords c).run ⟨w, []⟩ evs = some cfg) : ChangesInForce c cfg := by
  obtain ⟨gs, htr, hI, h⟩ : ∃ gs, Protocol.Tracked (setting c) cfg gs ∧
      PasswordsKept c rows cfg.shared gs ∧ ChangesKept c cfg.shared.db gs := by
    refine Protocol.run_tracks (setting_follows c)
      (fun w gs => PasswordsKept c rows w gs ∧ ChangesKept c w.db gs) ?_
      ⟨[], Protocol.tracked_nil _ w, passwords_start c hw, ?_⟩ hcond hrun
    · rintro cfg gs ev s' gs' htr ⟨hI, h⟩ hC hmv
      refine ⟨hI.move hschema hmv, ?_⟩
      cases hmv with
      | spawn call =>
          refine h.spawn call fun hs hv => ?_
          obtain ⟨g, hg, -⟩ := hI.ledger.written hs hv
          exact (List.getElem?_eq_some_iff.mp hg).1
      | step hg hcall hnext hans hstep => exact h.step htr hI hschema hC hg hnext hans hstep
      | env e =>
          change ChangesKept c (cfg.shared.expire e).db gs
          rwa [World.expire_db]
    · refine ⟨by simp, by simp, ?_⟩
      intro d s hs
      rw [hw, List.getElem?_map] at hs
      obtain ⟨r, -, rfl⟩ := Option.map_eq_some_iff.mp hs
      exact .loaded r
  exact in_force_of_kept htr hschema hI h

/-- One account. -/
def one_user : List Record := [.user (sample_user "old password")]

theorem one_user_schema : Schema one_user := by
  refine ⟨?_, ?_, ?_⟩
  · intro a b u v ha hb _
    rcases a with _ | a <;> rcases b with _ | b <;> simp_all [one_user]
  · intro a b p q ha
    rcases a with _ | a <;> simp [one_user] at ha
  · intro a p ha
    rcases a with _ | a <;> simp [one_user] at ha

/-- One change after the other, each proving the password the account has by then. -/
def changes_in_turn : List (Basis.Event Choice PasswordCall Expiry) :=
  [.spawn (.change ⟨7, "old password", "first password"⟩), .step 0 .go, .step 0 (.number 0),
    .step 0 .go, .step 0 .go, .step 0 .go,
    .spawn (.change ⟨7, "first password", "second password"⟩), .step 1 .go, .step 1 (.number 0),
    .step 1 .go, .step 1 .go, .step 1 .go]

theorem passwords_in_force_in_turn : ∃ cfg,
    (passwords sample_crates).run ⟨World.of one_user, []⟩ changes_in_turn = some cfg ∧
      cfg.result 0 = some (.changed (.ok ())) ∧ cfg.result 1 = some (.changed (.ok ())) ∧
      ChangesInForce sample_crates cfg :=
  ⟨_, rfl, rfl, rfl, passwords_in_force sample_crates one_user one_user_schema (World.of one_user)
    rfl changes_in_turn _ (by decide) rfl⟩

/-- Two changes of the same password read it at the same time. -/
def overtaken : List (Basis.Event Choice PasswordCall Expiry) :=
  [.spawn (.change ⟨7, "old password", "first password"⟩),
    .spawn (.change ⟨7, "old password", "second password"⟩), .step 0 .go, .step 1 .go,
    .step 0 (.number 0), .step 1 (.number 0), .step 0 .go, .step 0 .go, .step 0 .go,
    .step 1 .go, .step 1 .go, .step 1 .go]

theorem overtaken_confirms_both : ∃ cfg,
    (passwords sample_crates).run ⟨World.of one_user, []⟩ overtaken = some cfg ∧
      cfg.result 0 = some (.changed (.ok ())) ∧ cfg.result 1 = some (.changed (.ok ())) ∧
      ¬ ChangesInForce sample_crates cfg := by
  refine ⟨_, rfl, rfl, rfl, ?_⟩
  intro h
  obtain ⟨u, hu, -, hv⟩ := h.on_top (k := 1) rfl 0 _ [] _ _ _ _ rfl rfl
  cases hu
  revert hv
  decide

end Authnz
