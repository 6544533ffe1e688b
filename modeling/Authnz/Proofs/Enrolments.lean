/-
Passkeys registered, removed and used at the same time.

A row keeps the id of its credential twice, as the key it is filed under and inside
the stored credential, and a login's write-back selects by that key and by nothing
else.  `passkeys_keep` says what no order of the steps can break: rows stay filed
under their credentials and apart, a row stays whose it was, a login writes one row
at most, and a row that was removed does not come back.
-/
import Authnz.Basis.Unique
import Authnz.Proofs.Counters

namespace Authnz

open Basis

/-- A call that works on the stored passkeys. -/
inductive PasskeyCall where
  | insert_credential (user_id : Uuid) (passkey : Passkey) (label : Option String)
  | delete_credential (user_id credential_row_id : Uuid)
  | credentials_for_user (user_id : Uuid)
  /-- The write-back of a login that has passed verification. -/
  | refresh_counter (login : AssertedLogin)
  deriving DecidableEq

/-- What such a call returns. -/
inductive PasskeyAnswer where
  | inserted (r : Except RepoError Unit)
  | removed (r : Except RepoError Bool)
  | listed (r : Except RepoError (List Passkey))
  | refreshed

section System

variable {Reg Cred : Type}

def PasskeyCall.code (wa : Webauthn Reg Cred) : PasskeyCall → Handler PasskeyAnswer
  | .insert_credential user_id passkey label => do
      return .inserted (← (CredsRepo.insert_credential wa user_id passkey label).run)
  | .delete_credential user_id credential_row_id => do
      return .removed (← (CredsRepo.delete_credential user_id credential_row_id).run)
  | .credentials_for_user user_id => do
      return .listed (← (CredsRepo.credentials_for_user wa user_id).run)
  | .refresh_counter login => do
      passkey_login.refresh_counter wa login.user_id login.result
      return .refreshed

/-- Any number of such calls at once. -/
abbrev enrolling (c : Crates) (wa : Webauthn Reg Cred) :
    System Op Op.Reply Choice World PasskeyCall Expiry PasskeyAnswer :=
  service c (PasskeyCall.code wa)

end System

abbrev PasskeyConfig : Type := Config Op Op.Reply World PasskeyCall PasskeyAnswer

/-! ### What is claimed -/

/-- A credential survives storage. -/
def Webauthn.RoundTrips {Reg Cred : Type} (wa : Webauthn Reg Cred) : Prop :=
  ∀ {k : Passkey} {data : String}, wa.to_string k = some data → wa.from_str data = some k

/-- Row `d` was there and has been removed. -/
def Removed (w : World) (d : Nat) : Prop := ∃ s, w.db[d]? = some s ∧ s.Ended

/-- Call `i` has made this of row `d`. -/
def Made (w : World) (i d : Nat) (v : Option Record) : Prop :=
  ∃ s, w.db[d]? = some s ∧ ⟨some i, v⟩ ∈ s.versions

/-- The two agree in everything a row keeps from its insertion on. -/
structure PasskeyCredential.SameRow (p q : PasskeyCredential) : Prop where
  id : q.id = p.id
  user_id : q.user_id = p.user_id
  credential_id : q.credential_id = p.credential_id
  label : q.label = p.label
  created_at : q.created_at = p.created_at

/-- What holds of the passkeys in `cfg'` and has held of them since `cfg`, in a run that began with
`n` rows. -/
structure PasskeysKeep {Reg Cred : Type} (wa : Webauthn Reg Cred) (n : Nat)
    (cfg cfg' : PasskeyConfig) : Prop where
  filed : ∀ {d : Nat} {p : PasskeyCredential}, cfg'.shared.row passkey_credentials d = some p →
    ∃ k, wa.from_str p.passkey_data = some k ∧ p.credential_id = credential_id_b64 k
  unique : ∀ {d e : Nat} {p q : PasskeyCredential},
    cfg'.shared.row passkey_credentials d = some p →
    cfg'.shared.row passkey_credentials e = some q → p.credential_id = q.credential_id → d = e
  same_row : ∀ {d : Nat} {p q : PasskeyCredential},
    cfg.shared.row passkey_credentials d = some p →
    cfg'.shared.row passkey_credentials d = some q → p.SameRow q
  /-- A login has written nothing but the one row of the credential it asserts. -/
  one_row : ∀ {i : Nat} {login : AssertedLogin}, cfg'.call i = some (.refresh_counter login) →
    ∀ {d : Nat} {v : Option Record}, Made cfg'.shared i d v →
      (∃ p, v = some (.passkey_credential p) ∧
        p.credential_id = base64url login.result.cred_id) ∧
      ∀ {e : Nat} {v' : Option Record}, Made cfg'.shared i e v' → e = d
  stays_removed : ∀ {d : Nat}, Removed cfg.shared d → Removed cfg'.shared d
  /-- A row that was not there from the start has been inserted by a registration. -/
  inserted : ∀ {d : Nat} {p : PasskeyCredential},
    cfg'.shared.row passkey_credentials d = some p → n ≤ d →
      ∃ i user_id passkey label,
        cfg'.call i = some (.insert_credential user_id passkey label) ∧ p.user_id = user_id ∧
          p.label = label ∧ p.credential_id = credential_id_b64 passkey

/-! ### The calls, in phases -/

/-- What the calls other than a login ask for. -/
inductive EnrolOp {Reg Cred : Type} (wa : Webauthn Reg Cred) (call : PasskeyCall) : Op → Prop
  | now : EnrolOp wa call .now
  | select (p : Record → Bool) : EnrolOp wa call (.sql (.select p))
  | scan (p : Record → Bool) : EnrolOp wa call (.sql (.scan p))
  | insert {user_id : Uuid} {k : Passkey} {label : Option String} {data : String} {now : Time}
      (hcall : call = .insert_credential user_id k label) (hdata : wa.to_string k = some data) :
      EnrolOp wa call (.sql (.insert .tx (fun id => passkey_credentials.inj
        { id, user_id, credential_id := credential_id_b64 k, passkey_data := data, label,
          created_at := now, last_used_at := none }) passkey_credentials.clashes))
  | delete (i : Nat) (p : Record → Bool) : EnrolOp wa call (.sql (.visit i p Relation.del))
  | commit : EnrolOp wa call (.sql .commit)
  | rollback : EnrolOp wa call (.sql .rollback)

inductive EnrolPhase where
  | login (ph : CounterPhase)
  | other

section Protocol

variable {Reg Cred : Type} (wa : Webauthn Reg Cred)

inductive EnrolStep : PasskeyCall → EnrolPhase → (o : Op) → o.Reply → EnrolPhase → Prop
  | login {call : AssertedLogin} {ph ph' : CounterPhase} {o : Op} {r : o.Reply}
      (h : CounterStep wa call ph o r ph') :
      EnrolStep (.refresh_counter call) (.login ph) o r (.login ph')
  | other {call : PasskeyCall} {o : Op} {r : o.Reply} (h : EnrolOp wa call o) :
      EnrolStep call .other o r .other

/-- Working on the stored passkeys, as a protocol. -/
abbrev keeping : Protocol Op Op.Reply PasskeyCall PasskeyAnswer where
  Phase := EnrolPhase
  start
    | .refresh_counter _ => .login .start
    | _ => .other
  Step := EnrolStep wa
  Final _ _ _ := True

variable {wa}

/-- A call other than a login asks for nothing else, its statements taken apart. -/
theorem PasskeyCall.uses {call : PasskeyCall} (hcall : ∀ login, call ≠ .refresh_counter login) :
    (call.code wa).Uses fun o => o.split.Uses (EnrolOp wa call) := by
  cases call with
  | insert_credential user_id passkey label =>
      refine Prog.uses_bind ?_ fun _ => trivial
      unfold CredsRepo.insert_credential
      dsimp only
      cases hdata : wa.to_string passkey with
      | none => trivial
      | some data =>
          refine Prog.uses_bindE (uses_lift (uses_ask (uses_ask .now))) fun now => ?_
          exact Prog.uses_bindE (uses_attempt (uses_insert
            (uses_split_insert (.insert rfl hdata) .commit .rollback))) fun _ => trivial
  | delete_credential user_id row_id =>
      refine Prog.uses_bind ?_ fun _ => trivial
      exact Prog.uses_bindE (uses_attempt (uses_delete
        (uses_split_write (.scan _) (fun i => .delete i _) .commit .rollback))) fun _ => trivial
  | credentials_for_user user_id =>
      refine Prog.uses_bind ?_ fun _ => trivial
      refine Prog.uses_bindE (uses_attempt (uses_select (uses_ask (.select _)))) fun rows => ?_
      split <;> trivial
  | refresh_counter login => exact absurd rfl (hcall login)

theorem keeping_follows (c : Crates) (call : PasskeyCall) :
    (keeping wa).Follows call ((enrolling c wa).code call) := by
  have hother : (∀ login, call ≠ .refresh_counter login) →
      (keeping wa).Walks call ((call.code wa).interp Op.split) .other fun _ _ => True := by
    intro hcall
    have huses : ((call.code wa).interp Op.split).Uses (EnrolOp wa call) :=
      Prog.uses_interp (fun _ h => h) (PasskeyCall.uses hcall)
    exact Protocol.walks_mono (Protocol.walks_uses huses fun o r ho => .other ho)
      fun _ _ _ => trivial
  cases call with
  | refresh_counter login =>
      have hlogin : Goes (keeping wa) (.refresh_counter login)
          (passkey_login.refresh_counter wa login.user_id login.result) (.login .start) _ :=
        goes_embed (keeping wa) (.refresh_counter login) EnrolPhase.login (fun h => .login h)
          (recounting_follows wa c login)
      exact goes_bind (goes_mono hlogin fun _ _ _ => trivial)
  | insert_credential user_id passkey label => exact hother nofun
  | delete_credential user_id row_id => exact hother nofun
  | credentials_for_user user_id => exact hother nofun

theorem EnrolOp.part {call : PasskeyCall} {o : Op} (h : EnrolOp wa call o) : World.Part o := by
  cases h <;> first
    | exact .quiet trivial
    | exact .sql (by constructor)

theorem EnrolStep.part {call : PasskeyCall} {ph ph' : EnrolPhase} {o : Op} {r : o.Reply}
    (h : EnrolStep wa call ph o r ph') : World.Part o := by
  cases h with
  | login h => exact h.part
  | other h => exact h.part

end Protocol

/-! ### What the calls' statements do to a row -/

/-- What a row keeps from its insertion on. -/
def standing (r : Record) : Option (Uuid × Uuid × String × Option String × Time) :=
  (passkey_credentials.prj r).map fun p => (p.id, p.user_id, p.credential_id, p.label, p.created_at)

/-- The key of the table's index on `credential_id`. -/
def credential_key (r : Record) : Option String :=
  (passkey_credentials.prj r).map (·.credential_id)

theorem key_of_standing {r r' : Record} (h : standing r = standing r') :
    credential_key r = credential_key r' := by
  have hkey : ∀ r, credential_key r = (standing r).map fun x => x.2.2.1 := by
    intro r
    unfold credential_key standing
    cases passkey_credentials.prj r <;> rfl
  rw [hkey, hkey, h]

section Statements

variable {Reg Cred : Type} {wa : Webauthn Reg Cred}

/-- The row is filed under the credential in it. -/
def FiledRow (wa : Webauthn Reg Cred) (p : PasskeyCredential) : Prop :=
  ∃ k, wa.from_str p.passkey_data = some k ∧ p.credential_id = credential_id_b64 k

/-- What a call's statements may do to the passkeys. -/
structure Enrols (wa : Webauthn Reg Cred) (call : PasskeyCall) (q : SqlOp Record) : Prop where
  part : q.Part
  fixes : q.Fixes standing
  checks : q.Checks credential_key
  rewrites : ∀ {i : Nat} {p : Record → Bool} {f : Record → Option Record} {a : Record}
    {b : PasskeyCredential}, q = .visit i p f → p a = true →
    f a = some (.passkey_credential b) → FiledRow wa b
  inserts : ∀ {mk : Nat → Record} {clash : Record → Record → Bool} {n : Nat}
    {p : PasskeyCredential}, q = .insert .tx mk clash → mk n = .passkey_credential p →
    FiledRow wa p ∧ ∃ k, call = .insert_credential p.user_id k p.label ∧
      p.credential_id = credential_id_b64 k

theorem Enrols.read {call : PasskeyCall} {q : SqlOp Record} (hpart : q.Part)
    (hvisit : ∀ i p f, q ≠ .visit i p f) (hinsert : ∀ mk clash, q ≠ .insert .tx mk clash) :
    Enrols wa call q where
  part := hpart
  fixes i p f h := absurd h (hvisit i p f)
  checks mk clash h := absurd h (hinsert mk clash)
  rewrites h := absurd h (hvisit _ _ _)
  inserts h := absurd h (hinsert _ _)

theorem EnrolOp.enrols (hwa : wa.RoundTrips) {call : PasskeyCall} {q : SqlOp Record}
    (h : EnrolOp wa call (.sql q)) : Enrols wa call q := by
  cases h with
  | select p => exact .read (.select p) nofun nofun
  | scan p => exact .read (.scan p) nofun nofun
  | commit => exact .read .commit nofun nofun
  | rollback => exact .read .rollback nofun nofun
  | delete i p =>
      exact {
        part := .visit i p _
        fixes := by
          intro i' p' f h a b _ hb
          cases h
          cases hb
        checks := nofun
        rewrites := by
          intro i' p' f a b h _ hb
          cases h
          cases hb
        inserts := nofun }
  | @insert user_id k label data now hcall hdata =>
      exact {
        part := .insert _ _
        fixes := nofun
        checks := by
          intro mk clash h a b x ha hb
          cases h
          obtain ⟨p, hp, hpx⟩ := Option.map_eq_some_iff.mp ha
          obtain ⟨p', hp', hpx'⟩ := Option.map_eq_some_iff.mp hb
          rw [passkey_credentials.inj_of_prj hp, passkey_credentials.inj_of_prj hp',
            passkey_credentials.clashes_inj]
          simp [passkey_credentials, hpx, hpx']
        rewrites := nofun
        inserts := by
          intro mk clash n p h hp
          cases h
          cases hp
          exact ⟨⟨k, hwa hdata, rfl⟩, k, hcall, rfl⟩ }

theorem CounterStep.sql_part {login : AssertedLogin} {ph ph' : CounterPhase} {q : SqlOp Record}
    {r : Op.Reply (.sql q)} (h : CounterStep wa login ph (.sql q) r ph') : q.Part := by
  cases h <;> constructor

/-- What a login has in hand once it has loaded the credential. -/
def Knows (wa : Webauthn Reg Cred) (login : AssertedLogin) : CounterPhase → Prop
  | .timed k data _ | .writing k data _ _ _ =>
      wa.to_string k = some data ∧ k.cred_id = login.result.cred_id
  | _ => True

theorem refreshed_id (hids : wa.KeepsId) {rows : List Record} {result : AuthenticationResult}
    {k : Passkey} (h : refreshed wa rows result = some k) : k.cred_id = result.cred_id := by
  obtain ⟨credentials, -, h⟩ := Option.bind_eq_some_iff.mp h
  obtain ⟨cred, hfind, h⟩ := Option.bind_eq_some_iff.mp h
  split at h
  · rename_i k' hup
    obtain rfl := Option.some.inj h
    rw [hids hup]
    simpa using List.find?_some hfind
  · cases h

theorem Knows.step (hids : wa.KeepsId) {login : AssertedLogin} {ph ph' : CounterPhase} {o : Op}
    {r : o.Reply} (hk : Knows wa login ph) (h : CounterStep wa login ph o r ph') :
    Knows wa login ph' := by
  cases h with
  | clock hnew hdata => exact ⟨hdata, refreshed_id hids hnew⟩
  | scan => exact hk
  | visit => exact hk
  | _ => trivial

/-- A row a login takes is filed under the credential it asserts, and stays so. -/
theorem login_rewrites {login : AssertedLogin} {ph ph' : CounterPhase} {i : Nat}
    {p : Record → Bool} {f : Record → Option Record} {r : Op.Reply (.sql (.visit i p f))}
    (hk : Knows wa login ph) (h : CounterStep wa login ph (.sql (.visit i p f)) r ph') {a : Record}
    (ha : p a = true) : ∃ b b' k data now, a = .passkey_credential b ∧ b' = b.recounted data now ∧
      f a = some (.passkey_credential b') ∧ wa.to_string k = some data ∧
      b.credential_id = credential_id_b64 k ∧ k.cred_id = login.result.cred_id := by
  have hread : ∀ {k : Passkey} {data : String} {now : Time}, wa.to_string k = some data →
      k.cred_id = login.result.cred_id →
      passkey_credentials.sel (FiledUnder (credential_id_b64 k)) a = true →
      ∃ b b' k₁ data₁ now₁, a = .passkey_credential b ∧ b' = b.recounted data₁ now₁ ∧
        passkey_credentials.set (·.recounted data now) a = some (.passkey_credential b') ∧
        wa.to_string k₁ = some data₁ ∧ b.credential_id = credential_id_b64 k₁ ∧
        k₁.cred_id = login.result.cred_id := by
    intro k data now hdata hid hsel
    obtain ⟨b, rfl, hb⟩ := passkey_credentials.sel_iff.mp hsel
    exact ⟨b, _, k, data, now, rfl, rfl, passkey_credentials.set_inj _ b, hdata,
      beq_iff_eq.mp hb, hid⟩
  cases h with
  | visit => exact hread hk.1 hk.2 ha
  | visit_fails => exact hread hk.1 hk.2 ha

theorem login_enrols (hwa : wa.RoundTrips) {login : AssertedLogin} {ph ph' : CounterPhase}
    {q : SqlOp Record} {r : Op.Reply (.sql q)} (hk : Knows wa login ph)
    (h : CounterStep wa login ph (.sql q) r ph') : Enrols wa (.refresh_counter login) q := by
  cases q with
  | visit i p f =>
      exact {
        part := h.sql_part
        fixes := by
          intro i' p' f' heq a b ha hb
          cases heq
          obtain ⟨c, c', k, data, now, rfl, rfl, hf, -, -, -⟩ := login_rewrites hk h ha
          cases hf.symm.trans hb
          rfl
        checks := nofun
        rewrites := by
          intro i' p' f' a b heq ha hb
          cases heq
          obtain ⟨c, c', k, data, now, rfl, rfl, hf, hdata, hid, -⟩ := login_rewrites hk h ha
          cases hf.symm.trans hb
          exact ⟨k, hwa hdata, hid⟩
        inserts := nofun }
  | insert ex mk clash => cases h
  | _ => exact .read h.sql_part nofun nofun

end Statements

/-! ### The table through a run -/

section Invariant

variable {Reg Cred : Type} {wa : Webauthn Reg Cred}

abbrev KeepingGhost (wa : Webauthn Reg Cred) : Type := (keeping wa).Ghost

/-- What is in a slot, or will be. -/
structure KeptSlot (wa : Webauthn Reg Cred) (n : Nat) (gs : List (KeepingGhost wa)) (d : Nat)
    (s : Slot Record) : Prop where
  same : s.Same standing
  filed : ∀ {p : PasskeyCredential}, s.Bears (.passkey_credential p) → FiledRow wa p
  inserted : ∀ {p : PasskeyCredential}, s.Bears (.passkey_credential p) → n ≤ d →
    ∃ g ∈ gs, ∃ k, g.call = .insert_credential p.user_id k p.label ∧
      p.credential_id = credential_id_b64 k
  laid : s.Laid

/-- What login `i` has done to the table. -/
structure LoginKept (wa : Webauthn Reg Cred) (t : Table Record) (i : Nat) (login : AssertedLogin)
    (ph : CounterPhase) : Prop where
  knows : Knows wa login ph
  asserted : ∀ {d : Nat} {s : Slot Record} {v : Option Record}, t[d]? = some s →
    s.Carries (some i) v → ∃ p, v = some (.passkey_credential p) ∧
      p.credential_id = base64url login.result.cred_id
  unwritten : (∀ k acc, ph ≠ .written k acc) → ∀ {d : Nat} {s : Slot Record} {v : Option Record},
    t[d]? = some s → ⟨some i, v⟩ ∉ s.versions
  one : ∀ {d e : Nat} {s s' : Slot Record} {v v' : Option Record}, t[d]? = some s →
    t[e]? = some s' → ⟨some i, v⟩ ∈ s.versions → ⟨some i, v'⟩ ∈ s'.versions → e = d

/-- **The invariant of the stored passkeys.** -/
structure EnrolmentsKept (wa : Webauthn Reg Cred) (n : Nat) (t : Table Record)
    (gs : List (KeepingGhost wa)) : Prop where
  slots : ∀ {d : Nat} {s : Slot Record}, t[d]? = some s → KeptSlot wa n gs d s
  unique : t.Unique credential_key
  known : ∀ {d k : Nat} {s : Slot Record} {v : Option Record}, t[d]? = some s →
    s.Carries (some k) v → k < gs.length
  logins : ∀ {i : Nat} {g : KeepingGhost wa} {login : AssertedLogin}, gs[i]? = some g →
    g.call = .refresh_counter login → ∃ ph, g.phase = .login ph ∧ LoginKept wa t i login ph

variable {n i : Nat} {t t' : Table Record} {gs gs' : List (KeepingGhost wa)} {c : Crates}
  {ch : Choice} {w w' : World}

theorem KeptSlot.calls {d : Nat} {s : Slot Record} (h : KeptSlot wa n gs d s)
    (hcalls : SameCalls gs gs') : KeptSlot wa n gs' d s := by
  refine ⟨h.same, h.filed, fun {p} hp hd => ?_, h.laid⟩
  obtain ⟨g, hg, k, hcall, hid⟩ := h.inserted hp hd
  obtain ⟨j, hj⟩ := List.mem_iff_getElem?.mp hg
  obtain ⟨g', hg', hsame⟩ := hcalls hj
  exact ⟨g', List.mem_of_getElem? hg', k, hsame.trans hcall, hid⟩

/-- Another caller's work does not touch what a login has done. -/
theorem LoginKept.other {k : Nat} {login : AssertedLogin} {ph : CounterPhase}
    (h : LoginKept wa t k login ph) (he : Effect i t t') (hne : k ≠ i)
    (hcarries : ∀ {d : Nat} {s' : Slot Record} {v : Option Record}, t'[d]? = some s' →
      s'.Carries (some k) v → ∃ s, t[d]? = some s ∧ s.Carries (some k) v) :
    LoginKept wa t' k login ph := by
  have hbefore : ∀ {d : Nat} {s' : Slot Record} {v : Option Record}, t'[d]? = some s' →
      ⟨some k, v⟩ ∈ s'.versions → ∃ s, t[d]? = some s ∧ ⟨some k, v⟩ ∈ s.versions := by
    intro d s' v hs' hv
    rcases he.new hs' with ⟨s, hs, hturn⟩ | ⟨-, r, rfl, -⟩
    · exact ⟨s, hs, hturn.version_before hv rfl hne⟩
    · cases hv
  refine ⟨h.knows, fun {d s' v} hs' hv => ?_, fun hph {d s' v} hs' hv => ?_,
    fun {d e s s' v v'} hs hs' hv hv' => ?_⟩
  · obtain ⟨s, hs, hv⟩ := hcarries hs' hv
    exact h.asserted hs hv
  · obtain ⟨s, hs, hv⟩ := hbefore hs' hv
    exact h.unwritten hph hs hv
  · obtain ⟨s₁, hs₁, hv⟩ := hbefore hs hv
    obtain ⟨s₂, hs₂, hv'⟩ := hbefore hs' hv'
    exact h.one hs₁ hs₂ hv hv'

/-- A login adds versions only when it commits, and that ends it. -/
theorem login_versions {login : AssertedLogin} {ph ph' : CounterPhase} {o : Op} {r : o.Reply}
    (h : CounterStep wa login ph o r ph') (hans : World.answer c i o ch w = some (w', r)) :
    (∀ k acc, ph ≠ .written k acc) ∧
      ((∃ k acc, ph' = .written k acc) ∧ w'.db = w.db.map (Slot.commit i) ∨
        ∀ {d : Nat} {s' : Slot Record}, w'.db[d]? = some s' →
          s'.versions = [] ∨ ∃ s, w.db[d]? = some s ∧ s'.versions = s.versions) := by
  refine ⟨by cases h <;> nofun, ?_⟩
  have hpart := h.part.versions hans
  cases h with
  | commit =>
      have hdb := World.answer_committed hans
      exact .inl ⟨⟨_, _, rfl⟩, hdb⟩
  | commit_fails =>
      have hdb := World.answer_commit_failed hans
      rw [hdb]
      refine .inr fun {d s'} hs' => ?_
      rw [List.getElem?_map] at hs'
      obtain ⟨s, hs, rfl⟩ := Option.map_eq_some_iff.mp hs'
      exact .inr ⟨s, hs, Slot.versions_rollback i s⟩
  | _ =>
      rcases hpart with ⟨heq, -⟩ | hv
      · cases heq
      · exact .inr hv

theorem LoginKept.step (hids : wa.KeepsId) (hunique : w.db.Unique credential_key)
    {login : AssertedLogin} {ph ph' : CounterPhase} {o : Op} {r : o.Reply}
    (h : LoginKept wa w.db i login ph) (hstep : CounterStep wa login ph o r ph')
    (hans : World.answer c i o ch w = some (w', r)) : LoginKept wa w'.db i login ph' := by
  obtain ⟨hnot, hversions⟩ := login_versions hstep hans
  refine ⟨h.knows.step hids hstep, fun {d s' v} hs' hv => ?_, fun hph {d s' v} hs' hv => ?_,
    fun {d e s s' v v'} hs hs' hv hv' => ?_⟩
  · rcases World.answer_db hans with heq | ⟨q, out, r', hq, hdb⟩
    · rw [heq] at hs'
      exact h.asserted hs' hv
    · cases o with
      | sql q' =>
          cases hq
          rcases hstep.sql_part.carries hdb hs' hv with ⟨s, hs, hold⟩ |
              ⟨p, f, s, a, rfl, -, -, -, hp, rfl⟩ | ⟨mk, clash, key, rfl, -⟩
          · exact h.asserted hs hold
          · obtain ⟨b, b', k, data, now, -, rfl, hf, -, hid, hk⟩ := login_rewrites h.knows hstep hp
            refine ⟨_, hf, ?_⟩
            rw [show (b.recounted data now).credential_id = b.credential_id from rfl, hid,
              credential_id_b64, hk]
          · cases hstep
      | update id dto => cases hstep
      | _ => cases hq
  · rcases hversions with ⟨⟨k, acc, heq⟩, -⟩ | hkept
    · exact absurd heq (hph k acc)
    · rcases hkept hs' with hnil | ⟨s, hs, heq⟩
      · rw [hnil] at hv
        cases hv
      · rw [heq] at hv
        exact h.unwritten hnot hs hv
  · rcases hversions with ⟨-, hdb⟩ | hkept
    · -- what it commits it held, under one key
      have hheld : ∀ {d : Nat} {s' : Slot Record} {v : Option Record}, w'.db[d]? = some s' →
          ⟨some i, v⟩ ∈ s'.versions → ∃ s, w.db[d]? = some s ∧ s.lock = some (i, v) := by
        intro d s' v hs' hv
        rw [hdb, List.getElem?_map] at hs'
        obtain ⟨s, hs, rfl⟩ := Option.map_eq_some_iff.mp hs'
        rcases (Slot.Turn.commit : s.Turn i (s.commit i)).versions with heq | ⟨v₀, hl, heq⟩
        · rw [heq] at hv
          exact absurd hv (h.unwritten hnot hs)
        · rw [heq] at hv
          rcases List.mem_cons.mp hv with hnew | hold
          · cases hnew
            exact ⟨s, hs, hl⟩
          · exact absurd hold (h.unwritten hnot hs)
      obtain ⟨s₁, hs₁, hl₁⟩ := hheld hs hv
      obtain ⟨s₂, hs₂, hl₂⟩ := hheld hs' hv'
      obtain ⟨p, rfl, hp⟩ := h.asserted hs₁ (.inr ⟨i, rfl, hl₁⟩)
      obtain ⟨p', rfl, hp'⟩ := h.asserted hs₂ (.inr ⟨i, rfl, hl₂⟩)
      exact hunique.held hs₂ hs₁ hl₂ hl₁ (congrArg some hp') (congrArg some hp)
    · rcases hkept hs with hnil | ⟨s₁, hs₁, heq⟩
      · rw [hnil] at hv
        cases hv
      · rw [heq] at hv
        exact absurd hv (h.unwritten hnot hs₁)

/-- A statement part keeps every slot as it should be. -/
theorem KeptSlot.part {call : PasskeyCall} {q : SqlOp Record} (hq : Enrols wa call q)
    {out : Outcome} {r : q.Reply} (hans : SqlOp.answer i q out t = some (t', r))
    (hslots : ∀ {d : Nat} {s : Slot Record}, t[d]? = some s → KeptSlot wa n gs d s)
    (hcall : ∃ g ∈ gs, g.call = call) {d : Nat} {s' : Slot Record} (hs' : t'[d]? = some s') :
    KeptSlot wa n gs d s' := by
  -- a passkey in the slot was in it, or is a new form of one that was, or has just been added
  have hsource : ∀ {p : PasskeyCredential}, s'.Bears (.passkey_credential p) →
      (∃ s, t[d]? = some s ∧ s.Bears (.passkey_credential p)) ∨
      (∃ s a, t[d]? = some s ∧ s.Bears a ∧ standing (.passkey_credential p) = standing a ∧
        FiledRow wa p) ∨
      FiledRow wa p ∧ ∃ k, call = .insert_credential p.user_id k p.label ∧
        p.credential_id = credential_id_b64 k := by
    intro p hp
    obtain ⟨x, hx⟩ := Slot.bears_iff.mp hp
    rcases hq.part.carries hans hs' hx with ⟨s, hs, hold⟩ | ⟨p', f, s, a, rfl, -, hs, ha, hpa, hfa⟩ |
        ⟨mk, clash, key, rfl, -, -, hmk⟩
    · exact .inl ⟨s, hs, Slot.bears_iff.mpr ⟨x, hold⟩⟩
    · exact .inr (.inl ⟨s, a, hs, ha, hq.fixes _ _ _ rfl _ _ hpa hfa.symm,
        hq.rewrites rfl hpa hfa.symm⟩)
    · exact .inr (.inr (hq.inserts rfl (Option.some.inj hmk).symm))
  refine ⟨hq.part.same hq.fixes hans hs' fun s hs => (hslots hs).same, fun {p} hp => ?_,
    fun {p} hp hd => ?_, ?_⟩
  · rcases hsource hp with ⟨s, hs, hold⟩ | ⟨-, -, -, -, -, hfiled⟩ | ⟨hfiled, -⟩
    · exact (hslots hs).filed hold
    · exact hfiled
    · exact hfiled
  · rcases hsource hp with ⟨s, hs, hold⟩ | ⟨s, a, hs, ha, hstand, -⟩ | ⟨-, k, rfl, hid⟩
    · exact (hslots hs).inserted hold hd
    · obtain ⟨p₀, hp₀⟩ : ∃ p₀, a = .passkey_credential p₀ := by
        obtain ⟨p₀, hp₀, -⟩ := Option.map_eq_some_iff.mp hstand.symm
        exact ⟨p₀, passkey_credentials.inj_of_prj hp₀⟩
      subst hp₀
      obtain ⟨g, hg, k, hcall, hid⟩ := (hslots hs).inserted ha hd
      have hrow : p.user_id = p₀.user_id ∧ p.credential_id = p₀.credential_id ∧
          p.label = p₀.label := by
        simp only [standing, passkey_credentials, Option.map_some, Option.some.injEq,
          Prod.mk.injEq] at hstand
        exact ⟨hstand.2.1, hstand.2.2.1, hstand.2.2.2.1⟩
      rw [hrow.1, hrow.2.1, hrow.2.2]
      exact ⟨g, hg, k, hcall, hid⟩
    · obtain ⟨g, hg, hcall⟩ := hcall
      exact ⟨g, hg, k, hcall, hid⟩
  · rcases (hq.part.effect hans).new hs' with ⟨s, hs, hturn⟩ | ⟨-, r, rfl, -⟩
    · exact (hslots hs).laid.turn hturn
    · exact .fresh i r

/-- What a step does to the table. -/
theorem EnrolmentsKept.statement (hwa : wa.RoundTrips) (hI : EnrolmentsKept wa n w.db gs)
    {g : KeepingGhost wa} (hg : gs[i]? = some g) {o : Op} {r : o.Reply} {ph : EnrolPhase}
    (hans : World.answer c i o ch w = some (w', r)) (hstep : EnrolStep wa g.call g.phase o r ph) :
    w'.db = w.db ∨ ∃ q out r', Enrols wa g.call q ∧
      SqlOp.answer i q out w.db = some (w'.db, r') := by
  rcases World.answer_db hans with heq | ⟨q, out, r', hq, hdb⟩
  · exact .inl heq
  · refine .inr ⟨q, out, r', ?_, hdb⟩
    obtain ⟨call, log, phase⟩ := g
    cases o with
    | sql q =>
        cases hq
        cases hstep with
        | login h =>
            obtain ⟨ph₀, hph, hl⟩ := hI.logins hg rfl
            cases hph
            exact login_enrols hwa hl.knows h
        | other h => exact h.enrols hwa
    | update id dto =>
        cases hstep with
        | login h => cases h
        | other h => cases h
    | _ => cases hq

theorem EnrolmentsKept.step (hwa : wa.RoundTrips) (hids : wa.KeepsId)
    (hI : EnrolmentsKept wa n w.db gs) {g : KeepingGhost wa} (hg : gs[i]? = some g) {o : Op}
    {r : o.Reply} {ph : EnrolPhase} (hans : World.answer c i o ch w = some (w', r))
    (hstep : EnrolStep wa g.call g.phase o r ph) :
    EnrolmentsKept wa n w'.db (gs.set i ⟨g.call, ⟨o, r⟩ :: g.log, ph⟩) := by
  let g' : KeepingGhost wa := ⟨g.call, ⟨o, r⟩ :: g.log, ph⟩
  have hcall : g'.call = g.call := rfl
  have hcalls : SameCalls gs (gs.set i g') := sameCalls_set hg hcall
  have hdb := hI.statement hwa hg hans hstep
  have hcarries : ∀ {d : Nat} {s' : Slot Record} {x : Option Nat} {v : Option Record},
      w'.db[d]? = some s' → s'.Carries x v →
        x = some i ∨ ∃ s, w.db[d]? = some s ∧ s.Carries x v := by
    intro d s' x v hs' hv
    rcases hdb with heq | ⟨q, out, r', hq, hdb⟩
    · rw [heq] at hs'
      exact .inr ⟨s', hs', hv⟩
    · rcases hq.part.carries hdb hs' hv with hold | ⟨-, -, -, -, -, hx, -⟩ | ⟨-, -, -, -, hx, -⟩
      · exact .inr hold
      · exact .inl hx
      · exact .inl hx
  refine ⟨fun {d s'} hs' => ?_, ?_, fun {d k s' v} hs' hv => ?_, fun {k x login} hk hcall => ?_⟩
  · rcases hdb with heq | ⟨q, out, r', hq, hdb⟩
    · rw [heq] at hs'
      exact (hI.slots hs').calls hcalls
    · exact (KeptSlot.part hq hdb hI.slots ⟨g, List.mem_of_getElem? hg, rfl⟩ hs').calls hcalls
  · rcases hdb with heq | ⟨q, out, r', hq, hdb⟩
    · rw [heq]
      exact hI.unique
    · refine hI.unique.part hq.part (fun i p f heq a b ha hb => ?_) hq.checks hdb
      exact key_of_standing (hq.fixes i p f heq a b ha hb)
  · rw [List.length_set]
    rcases hcarries hs' hv with hx | ⟨s, hs, hold⟩
    · cases hx
      exact (List.getElem?_eq_some_iff.mp hg).1
    · exact hI.known hs hold
  · rcases get_set_cases hk with ⟨rfl, rfl⟩ | ⟨hne, hk⟩
    · obtain ⟨call, log, phase⟩ := g
      obtain rfl : call = .refresh_counter login := hcall
      obtain ⟨ph₀, hph, hl⟩ := hI.logins hg rfl
      obtain rfl : phase = .login ph₀ := hph
      cases hstep with
      | login h => exact ⟨_, rfl, hl.step hids hI.unique h hans⟩
    · obtain ⟨ph₀, hph, hl⟩ := hI.logins hk hcall
      refine ⟨ph₀, hph, hl.other (hstep.part.effect hans) hne fun {d s' v} hs' hv => ?_⟩
      rcases hcarries hs' hv with hx | hold
      · exact absurd (Option.some.inj hx) hne
      · exact hold

theorem EnrolmentsKept.spawn (hI : EnrolmentsKept wa n t gs) (call : PasskeyCall) :
    EnrolmentsKept wa n t (gs ++ [⟨call, [], (keeping wa).start call⟩]) := by
  refine ⟨fun {d s} hs => (hI.slots hs).calls (sameCalls_snoc gs _), hI.unique,
    fun {d k s v} hs hv => ?_, fun {i g login} hi hcall => ?_⟩
  · rw [List.length_append]
    exact Nat.lt_add_right _ (hI.known hs hv)
  · rcases get_snoc_cases hi with ⟨rfl, rfl⟩ | hi
    · obtain rfl : call = .refresh_counter login := hcall
      have hno : ∀ {d : Nat} {s : Slot Record} {v : Option Record}, t[d]? = some s →
          ¬ s.Carries (some gs.length) v := fun hs hv => absurd (hI.known hs hv) (Nat.lt_irrefl _)
      exact ⟨.start, rfl, trivial, fun hs hv => absurd hv (hno hs),
        fun _ _ _ _ hs hv => hno hs (.inl hv), fun hs _ hv _ => absurd (.inl hv) (hno hs)⟩
    · exact hI.logins hi hcall

theorem enrolments_start {rows : List Record} (hstored : StoredPasskeys wa rows) :
    EnrolmentsKept wa rows.length (rows.map Slot.loaded) [] := by
  have hslot : ∀ {d : Nat} {s : Slot Record}, (rows.map Slot.loaded)[d]? = some s →
      ∃ r, rows[d]? = some r ∧ s = Slot.loaded r := by
    intro d s hs
    rw [List.getElem?_map] at hs
    obtain ⟨r, hr, rfl⟩ := Option.map_eq_some_iff.mp hs
    exact ⟨r, hr, rfl⟩
  have hbears : ∀ {r r' : Record}, (Slot.loaded r).Bears r' → r' = r := by
    intro r r' hr
    obtain ⟨x, hx⟩ := Slot.bears_iff.mp hr
    exact Option.some.inj (Slot.carries_of_loaded hx).2
  refine ⟨fun {d s} hs => ?_, .start fun {d e r r' x} hr hr' hx hx' => ?_,
    fun {d k s v} hs hv => ?_, fun hg => by cases hg⟩
  · obtain ⟨r, hr, rfl⟩ := hslot hs
    refine ⟨Slot.Same.loaded standing r, fun {p} hp => ?_, fun {p} hp hd => ?_, .loaded r⟩
    · obtain rfl := hbears hp
      exact hstored.filed hr
    · exact absurd (List.getElem?_eq_some_iff.mp hr).1 (Nat.not_lt.mpr hd)
  · obtain ⟨p, hp, rfl⟩ := Option.map_eq_some_iff.mp hx
    obtain ⟨p', hp', heq⟩ := Option.map_eq_some_iff.mp hx'
    rw [passkey_credentials.inj_of_prj hp] at hr
    rw [passkey_credentials.inj_of_prj hp'] at hr'
    exact hstored.unique hr hr' heq.symm
  · obtain ⟨r, -, rfl⟩ := hslot hs
    cases (Slot.carries_of_loaded hv).1

end Invariant

/-! ### Runs -/

section Runs

variable {Reg Cred : Type} {wa : Webauthn Reg Cred} {c : Crates} {n : Nat}
  {cfg cfg' : PasskeyConfig} {evs : List (Basis.Event Choice PasskeyCall Expiry)}

theorem enrolments_move (hwa : wa.RoundTrips) (hids : wa.KeepsId)
    {ev : Basis.Event Choice PasskeyCall Expiry} {gs gs' : List (KeepingGhost wa)} {w' : World}
    (hI : EnrolmentsKept wa n cfg.shared.db gs)
    (hmv : Protocol.Move (enrolling c wa) (keeping wa) cfg gs ev w' gs') :
    EnrolmentsKept wa n w'.db gs' := by
  cases hmv with
  | spawn call => exact hI.spawn call
  | step hg hcall hnext hans hstep => exact hI.step hwa hids hg hans hstep
  | env e =>
      change EnrolmentsKept wa n (cfg.shared.expire e).db gs
      rw [World.expire_db]
      exact hI

/-- What the rows were at `t₀` they have been since, and what was gone then is as it was. -/
theorem enrolments_run (hwa : wa.RoundTrips) (hids : wa.KeepsId) {t₀ : Table Record}
    (hstart : ∃ gs, Protocol.Tracked (keeping wa) cfg gs ∧
      EnrolmentsKept wa n cfg.shared.db gs ∧ t₀.Since cfg.shared.db)
    (hrun : (enrolling c wa).run cfg evs = some cfg') :
    ∃ gs, Protocol.Tracked (keeping wa) cfg' gs ∧ EnrolmentsKept wa n cfg'.shared.db gs ∧
      t₀.Since cfg'.shared.db := by
  refine Protocol.run_tracks (S := enrolling c wa) (keeping_follows c)
    (fun (w : World) gs => EnrolmentsKept wa n w.db gs ∧ t₀.Since w.db) ?_ hstart
    (System.along_true _ _ _) hrun
  intro cfg gs ev w' gs' htr hpost _ hmv
  obtain ⟨hI, hsince⟩ := hpost
  refine ⟨enrolments_move hwa hids hI hmv, ?_⟩
  cases hmv with
  | spawn call => exact hsince
  | step hg hcall hnext hans hstep =>
      exact hsince.effect (fun hs => (hI.slots hs).laid) (hstep.part.effect hans)
  | env e =>
      change t₀.Since (cfg.shared.expire e).db
      rw [World.expire_db]
      exact hsince

/-- A committed passkey is in its slot. -/
theorem bears_of_row {w : World} {d : Nat} {p : PasskeyCredential}
    (h : w.row passkey_credentials d = some p) : ∃ s, w.db[d]? = some s ∧
      s.current = some (.passkey_credential p) ∧
      ∃ x ∈ s.versions, x.row = some (.passkey_credential p) := by
  obtain ⟨r, hr, hprj⟩ := Option.bind_eq_some_iff.mp h
  obtain ⟨s, hs, hc⟩ := Option.bind_eq_some_iff.mp hr
  obtain rfl := passkey_credentials.inj_of_prj hprj
  obtain ⟨x, hx, hrow⟩ := Option.bind_eq_some_iff.mp hc
  exact ⟨s, hs, hc, x, List.mem_of_mem_head? hx, hrow⟩

end Runs

/-- **Stored passkeys keep their identity and their owner**, whatever registrations, removals, lists
and logins come in between. -/
theorem passkeys_keep {Reg Cred : Type} {wa : Webauthn Reg Cred} (hwa : wa.RoundTrips)
    (hids : wa.KeepsId) (c : Crates) (rows : List Record) (hstored : StoredPasskeys wa rows)
    (w : World) (hw : w.db = rows.map Slot.loaded)
    (evs evs' : List (Basis.Event Choice PasskeyCall Expiry)) (cfg cfg' : PasskeyConfig)
    (hrun : (enrolling c wa).run ⟨w, []⟩ evs = some cfg)
    (hrun' : (enrolling c wa).run cfg evs' = some cfg') :
    PasskeysKeep wa rows.length cfg cfg' := by
  obtain ⟨gs, htr, hI, -⟩ := enrolments_run hwa hids
    ⟨[], Protocol.tracked_nil _ w, by rw [hw]; exact enrolments_start hstored,
      Table.Since.refl w.db⟩ hrun
  obtain ⟨gs', htr', hI', hsince⟩ := enrolments_run hwa hids ⟨gs, htr, hI, Table.Since.refl _⟩ hrun'
  refine ⟨fun {d p} hp => ?_, fun {d e p q} hp hq hid => ?_, fun {d p q} hp hq => ?_,
    fun {i login} hcall {d v} hmade => ?_, fun {d} hgone => ?_, fun {d p} hp hd => ?_⟩
  · obtain ⟨s, hs, -, x, hx, hrow⟩ := bears_of_row hp
    exact (hI'.slots hs).filed (.inl ⟨x, hx, hrow⟩)
  · obtain ⟨s, hs, hc, -⟩ := bears_of_row hp
    obtain ⟨s', hs', hc', -⟩ := bears_of_row hq
    exact hI'.unique.committed hs hs' (by rw [hc]; rfl) (by rw [hc']; exact congrArg some hid.symm)
  · obtain ⟨s, hs, -, x, hx, hrow⟩ := bears_of_row hp
    obtain ⟨s', hs', -, y, hy, hrow'⟩ := bears_of_row hq
    obtain ⟨s₂, hs₂, hkept, -⟩ := hsince hs
    obtain rfl := Option.some.inj (hs'.symm.trans hs₂)
    have hsame := (hI'.slots hs').same (.inl ⟨y, hy, hrow'⟩) (.inl ⟨x, hkept x hx, hrow⟩)
    simp only [standing, passkey_credentials, Option.map_some, Option.some.injEq,
      Prod.mk.injEq] at hsame
    exact ⟨hsame.1, hsame.2.1, hsame.2.2.1, hsame.2.2.2.1, hsame.2.2.2.2⟩
  · obtain ⟨th, hth, hcalled⟩ := Option.map_eq_some_iff.mp hcall
    obtain ⟨g, hg, hcall', -, -⟩ := htr'.ghost hth
    obtain ⟨ph, -, hl⟩ := hI'.logins hg (hcall'.trans hcalled)
    obtain ⟨s, hs, hv⟩ := hmade
    refine ⟨hl.asserted hs (.inl hv), fun {e v'} hmade' => ?_⟩
    obtain ⟨s', hs', hv'⟩ := hmade'
    exact hl.one hs hs' hv hv'
  · obtain ⟨s, hs, hended⟩ := hgone
    obtain ⟨s', hs', -, hsame⟩ := hsince hs
    obtain rfl := hsame hended
    exact ⟨s', hs', hended⟩
  · obtain ⟨s, hs, -, x, hx, hrow⟩ := bears_of_row hp
    obtain ⟨g, hg, k, hcall, hid⟩ := (hI'.slots hs).inserted (.inl ⟨x, hx, hrow⟩) hd
    obtain ⟨j, hj⟩ := List.mem_iff_getElem?.mp hg
    exact ⟨j, _, k, _, (htr'.call hj).trans (congrArg some hcall), rfl, rfl, hid⟩

/-! ### A passkey removed while it is used -/

theorem counting_webauthn_round_trips : counting_webauthn.RoundTrips := by
  intro k data h
  obtain rfl : passkey_text k = data := Option.some.inj h
  exact passkey_of_passkey_text k

theorem counting_webauthn_keeps_id : counting_webauthn.KeepsId := by
  intro k k' result changed h
  obtain ⟨-, h⟩ := Option.ite_none_right_eq_some.mp h
  obtain ⟨-, rfl⟩ := Prod.mk.inj (Option.some.inj h)
  rfl

/-- Alice's login has loaded her passkey when she removes it. -/
def removed_in_flight : List (Basis.Event Choice PasskeyCall Expiry) :=
  [.spawn (.refresh_counter (alice_asserts 5)), .step 0 .go, .step 0 (.time 0),
    .spawn (.delete_credential 7 3), .step 1 .go, .step 1 .go, .step 1 .go]

/-- The login writes back what it has: scan, commit. -/
def write_back : List (Basis.Event Choice PasskeyCall Expiry) := [.step 0 .go, .step 0 .go]

theorem passkeys_keep_for_alice : ∃ cfg cfg',
    (enrolling sample_crates counting_webauthn).run ⟨World.of one_passkey, []⟩ removed_in_flight =
      some cfg ∧
    (enrolling sample_crates counting_webauthn).run cfg write_back = some cfg' ∧
    Removed cfg.shared 0 ∧ PasskeysKeep counting_webauthn 1 cfg cfg' := by
  have hruns : ∃ cfg cfg',
      (enrolling sample_crates counting_webauthn).run ⟨World.of one_passkey, []⟩
        removed_in_flight = some cfg ∧
      (enrolling sample_crates counting_webauthn).run cfg write_back = some cfg' ∧
      cfg.shared.db[0]? = some ⟨[⟨some 1, none⟩, ⟨none, some (.passkey_credential sample_enrolment)⟩],
        none⟩ := ⟨_, _, rfl, rfl, rfl⟩
  obtain ⟨cfg, cfg', hrun, hrun', hdb⟩ := hruns
  exact ⟨cfg, cfg', hrun, hrun', ⟨_, hdb, by simp, rfl⟩,
    passkeys_keep counting_webauthn_round_trips counting_webauthn_keeps_id sample_crates one_passkey
      one_passkey_stored (World.of one_passkey) rfl removed_in_flight write_back cfg cfg' hrun hrun'⟩

end Authnz
