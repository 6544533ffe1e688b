/-
Where sessions and refresh tokens come from.

Requests run one after the other, each to its end.  Whatever is requested, sessions are
never rewritten, a refresh token only ever becomes revoked or goes, and a token hash
belongs to one row for good.

Beside the sweeps doing what they attempt, one thing is asked of the environment: a
drawn token hashes to nothing stored before.
-/
import Authnz.Proofs.Routes

namespace Authnz

open Basis

/-! ### Rows at their places -/

/-- `R` reads the row at place `d`. -/
def World.Reads {me : Nat} (R : Reading Record me) (w : World) (d : Nat) (r : Record) : Prop :=
  ∃ s, w.db[d]? = some s ∧ R.reads s r

/-- The row was committed at place `d` at some time. -/
def World.Past (w : World) (d : Nat) (r : Record) : Prop :=
  ∃ s, w.db[d]? = some s ∧ ∃ x ∈ s.versions, x.row = some r

/-- The statement turns no row into a session and none into a refresh token but to revoke it. -/
structure Tame (q : SqlOp Record) : Prop where
  sessions : ∀ {old : Record} {s : Session}, ¬ q.Makes old (some (.session s))
  tokens : ∀ {old : Record} {r : RefreshToken}, q.Makes old (some (.refresh_token r)) →
    ∃ r₀, old = .refresh_token r₀ ∧ r = { r₀ with revoked := some true }

/-- The statement adds no refresh token. -/
def Tokenless (q : SqlOp Record) : Prop := ∀ r, ¬ q.Inserts (.refresh_token r)

/-- The operation's statement, if it has one, is tame and adds no refresh token. -/
def Harmless (o : Op) : Prop := ∀ q, o.statement = some q → Tame q ∧ Tokenless q

section Statements

variable {α : Type} {T : Relation α} {ex : Executor} {p : α → Bool} {f : α → α} {mk : Uuid → α}

/-- A statement that writes another table's rows does nothing to sessions and refresh tokens. -/
theorem tame_set (hs : ∀ s, T.prj (.session s) = none) (hr : ∀ r, T.prj (.refresh_token r) = none) :
    Tame (.write ex (T.sel p) (T.set f)) := by
  refine ⟨fun {old s} hm => ?_, fun {old r} hm => ?_⟩
  · obtain ⟨a, -, -, hv⟩ := makes_set hm
    have hprj := T.prj_inj (f a)
    rw [← Option.some.inj hv, hs] at hprj
    cases hprj
  · obtain ⟨a, -, -, hv⟩ := makes_set hm
    have hprj := T.prj_inj (f a)
    rw [← Option.some.inj hv, hr] at hprj
    cases hprj

theorem tame_delete {p : Record → Bool} : Tame (.write ex p Relation.del) :=
  ⟨fun hm => (nomatch hm.2), fun hm => (nomatch hm.2)⟩

theorem tame_insert {mk : Uuid → Record} {clash : Record → Record → Bool} :
    Tame (.insert ex mk clash) := ⟨fun hm => hm, fun hm => hm.elim⟩

theorem tokenless_insert (hr : ∀ r, T.prj (.refresh_token r) = none) :
    Tokenless (.insert ex (fun n => T.inj (mk n)) T.clashes) := by
  rintro r ⟨key, hkey⟩
  have hprj := T.prj_inj (mk key)
  rw [show T.inj (mk key) = .refresh_token r from hkey.symm, hr] at hprj
  cases hprj

theorem tokenless_write {p : Record → Bool} {f : Record → Option Record} :
    Tokenless (.write ex p f) := fun _ hi => hi

end Statements

/-- An operation without a statement does nothing to the rows. -/
theorem harmless_quiet {o : Op} (h : World.Quiet o) : Harmless o := fun q hq => by
  cases o <;> first | exact h.elim | cases hq

theorem Plain.harmless {o : Op} (h : Plain o) : Harmless o := by
  cases h with
  | quiet h hc => exact harmless_quiet h
  | begin | commit | rollback | select p =>
      rintro q ⟨⟩
      exact ⟨⟨fun hm => hm, fun hm => hm.elim⟩, fun _ hi => hi⟩
  | session_insert new =>
      rintro q ⟨⟩
      exact ⟨tame_insert, tokenless_insert fun _ => rfl⟩
  | session_delete p | token_delete ex p =>
      rintro q ⟨⟩
      exact ⟨tame_delete, tokenless_write⟩
  | token_revoke p =>
      rintro q ⟨⟩
      refine ⟨⟨fun hm => ?_, fun hm => ?_⟩, tokenless_write⟩
      · obtain ⟨a, -, -, hv⟩ := makes_set hm
        cases hv
      · obtain ⟨a, rfl, -, hv⟩ := makes_set hm
        cases hv
        exact ⟨a, rfl, rfl⟩
  | reset_spend p =>
      rintro q ⟨⟩
      exact ⟨tame_set (fun _ => rfl) fun _ => rfl, tokenless_write⟩
  | reset_insert mk | event_insert e =>
      rintro q ⟨⟩
      exact ⟨tame_insert, tokenless_insert fun _ => rfl⟩

theorem HashWrite.harmless {o : Op} (h : HashWrite o) : Harmless o := by
  rintro q hq
  rcases h with ⟨id, hash⟩ | ⟨id, hash, now⟩ <;> cases hq <;>
    exact ⟨tame_set (fun _ => rfl) fun _ => rfl, tokenless_write⟩

theorem harmless_update (id : Uuid) (dto : UpdateUser) : Harmless (.update id dto) := by
  rintro q ⟨⟩
  exact ⟨tame_set (fun _ => rfl) fun _ => rfl, tokenless_write⟩

theorem PasskeyLogin.harmless {o : Op} (h : PasskeyLogin o) : Harmless o := by
  rcases h with ⟨hc⟩ | ⟨p, data, now⟩
  · exact harmless_quiet (by cases o <;> trivial)
  · rintro q ⟨⟩
    exact ⟨tame_set (fun _ => rfl) fun _ => rfl, tokenless_write⟩

/-- The routes that hand out refresh tokens. -/
def Request.issues {Reg Cred : Type} : Request Reg Cred → Prop
  | .refresh _ => True
  | .jwt _ => True
  | _ => False

/-- Only `refresh` and `jwt` do more to sessions and refresh tokens. -/
theorem Request.harmless {Reg Cred : Type} {req : Request Reg Cred} {o : Op}
    (h : Plain o ∨ req.special o) : Harmless o ∨ req.issues ∧ TokenInsert o := by
  rcases h with h | h
  · exact .inl h.harmless
  cases req with
  | register req =>
      obtain ⟨mk, rfl⟩ := h
      refine .inl ?_
      rintro q ⟨⟩
      exact ⟨tame_insert, tokenless_insert fun _ => rfl⟩
  | confirm_password_reset payload => exact .inl (HashWrite.harmless h)
  | change_password cookie req params => exact .inl (HashWrite.harmless h)
  | refresh cmd => exact .inr ⟨trivial, h⟩
  | jwt cookie => exact .inr ⟨trivial, h⟩
  | update_user cookie id dto =>
      obtain ⟨id, dto, rfl⟩ := h
      exact .inl (harmless_update id dto)
  | confirm link params | confirm_token token nonce params =>
      obtain ⟨id, rfl⟩ := h
      exact .inl (harmless_update id _)
  | passkey_register_finish cookie label credential =>
      obtain ⟨mk, rfl⟩ := h
      refine .inl ?_
      rintro q ⟨⟩
      exact ⟨tame_insert, tokenless_insert fun _ => rfl⟩
  | passkey_remove cookie row_id =>
      obtain ⟨p, rfl⟩ := h
      refine .inl ?_
      rintro q ⟨⟩
      exact ⟨tame_delete, tokenless_write⟩
  | passkey_login_start username => exact .inl (PasskeyLogin.harmless h)
  | passkey_login_finish username credential params => exact .inl (PasskeyLogin.harmless h)
  | _ => exact h.elim

theorem TokenInsert.tame {o : Op} (h : TokenInsert o) {q : SqlOp Record}
    (hq : o.statement = some q) : Tame q := by
  obtain ⟨ex, r, rfl⟩ := h
  cases hq
  exact tame_insert

theorem Request.tame {Reg Cred : Type} {req : Request Reg Cred} {o : Op}
    (h : Plain o ∨ req.special o) {q : SqlOp Record} (hq : o.statement = some q) : Tame q :=
  (req.harmless h).elim (fun hh => (hh q hq).1) fun ht => ht.2.tame hq

/-! ### Where a row comes from -/

section Origins

variable {c : Crates} {me : Nat} {R : Reading Record me} {o : Op} {ch : Choice} {w w' : World}
  {r : o.Reply} {d : Nat}

theorem reads_of_answer {row : Record} (h : World.answer c me o ch w = some (w', r))
    (hd : w'.Reads R d row) :
    w.Reads R d row ∨
      (∃ q old, o.statement = some q ∧ w.Reads R d old ∧ q.Makes old (some row)) ∨
      (d = w.db.length ∧ ∃ q, o.statement = some q ∧ q.Inserts row) := by
  obtain ⟨s', hs', hr⟩ := hd
  rcases World.answer_db h with heq | ⟨q, out, r', hq, hans⟩
  · exact .inl ⟨s', by rw [← heq]; exact hs', hr⟩
  · rcases R.of_answer hans hs' hr with hold | ⟨s, old, hs, hv, hm⟩ | ⟨hd, hi⟩
    · exact .inl hold
    · exact .inr (.inl ⟨q, old, hq, ⟨s, hs, R.seen hv⟩, hm⟩)
    · exact .inr (.inr ⟨hd, q, hq, hi⟩)

/-- A session is where it was, or new. -/
theorem session_origin (ht : ∀ {q}, o.statement = some q → Tame q)
    (h : World.answer c me o ch w = some (w', r)) {s : Session} (hd : w'.Reads R d (.session s)) :
    w.Reads R d (.session s) ∨ d = w.db.length := by
  rcases reads_of_answer h hd with hold | ⟨q, old, hq, -, hm⟩ | ⟨hd, -⟩
  · exact .inl hold
  · exact absurd hm (ht hq).sessions
  · exact .inr hd

/-- A refresh token is where it was, revoked since perhaps, or new. -/
theorem token_origin (ht : ∀ {q}, o.statement = some q → Tame q)
    (h : World.answer c me o ch w = some (w', r)) {t : RefreshToken}
    (hd : w'.Reads R d (.refresh_token t)) :
    (∃ t₀, w.Reads R d (.refresh_token t₀) ∧ t.token_hash = t₀.token_hash ∧
        t.user_id = t₀.user_id ∧ (t₀.revoked = some true → t.revoked = some true)) ∨
      (d = w.db.length ∧ ∃ q, o.statement = some q ∧ q.Inserts (.refresh_token t)) := by
  rcases reads_of_answer h hd with hold | ⟨q, old, hq, hold, hm⟩ | hnew
  · exact .inl ⟨t, hold, rfl, rfl, id⟩
  · obtain ⟨t₀, rfl, rfl⟩ := (ht hq).tokens hm
    exact .inl ⟨t₀, hold, rfl, rfl, fun _ => rfl⟩
  · exact .inr hnew

/-- What was committed stays in the past. -/
theorem past_of_answer {row : Record} (h : World.answer c me o ch w = some (w', r))
    (hd : w.Past d row) : w'.Past d row := by
  obtain ⟨s, hs, x, hx, hrow⟩ := hd
  rcases World.answer_db h with heq | ⟨q, out, r', -, hans⟩
  · exact ⟨s, by rw [heq]; exact hs, x, hx, hrow⟩
  · obtain ⟨s', hs', hw⟩ := (SqlOp.answer_worked hans).old hs
    obtain ⟨pre, hpre⟩ := hw.suffix
    exact ⟨s', hs', x, by rw [hpre]; exact List.mem_append_right _ hx, hrow⟩

theorem length_of_answer (h : World.answer c me o ch w = some (w', r)) :
    w.db.length ≤ w'.db.length := by
  rcases World.answer_db h with heq | ⟨q, out, r', -, hans⟩
  · exact Nat.le_of_eq (congrArg List.length heq.symm)
  · by_contra hlt
    obtain ⟨s', hs', -⟩ := (SqlOp.answer_worked hans).old
      (List.getElem?_eq_getElem (Nat.lt_of_not_le hlt))
    have := (List.getElem?_eq_some_iff.mp hs').1
    omega

end Origins

/-- A row a caller can read was committed at some time, unless it is its own pending work. -/
theorem World.Past.reads {me : Nat} {w : World} {d : Nat} {r : Record} (h : w.Past d r) :
    w.Reads (.ever Record me) d r := by
  obtain ⟨s, hs, hx⟩ := h
  exact ⟨s, hs, .inl hx⟩

theorem past_of_places {w : World} {d : Nat} {r : Record} (h : w.places[d]? = some (some r)) :
    w.Past d r := by
  rw [World.places, List.getElem?_map] at h
  obtain ⟨s, hs, hc⟩ := Option.map_eq_some_iff.mp h
  obtain ⟨x, hx, hrow⟩ := Option.bind_eq_some_iff.mp hc
  exact ⟨s, hs, x, List.mem_of_mem_head? hx, hrow⟩

theorem reads_of_places {me : Nat} {w : World} {d : Nat} {r : Record}
    (h : w.places[d]? = some (some r)) : w.Reads (.live Record me) d r := by
  rw [World.places, List.getElem?_map] at h
  obtain ⟨s, hs, hc⟩ := Option.map_eq_some_iff.mp h
  exact ⟨s, hs, .inl hc⟩

/-- With no transaction open, what is live is what is committed. -/
theorem places_of_reads {me : Nat} {w : World} (hset : w.Settled me) {d : Nat} {r : Record}
    (h : w.Reads (.live Record me) d r) : w.places[d]? = some (some r) := by
  obtain ⟨s, hs, hc | hv⟩ := h
  · rw [World.places, List.getElem?_map, hs, Option.map_some, hc]
  · have hseen : (w.db.desk me).seen[d]? = some (some r) := by
      change (w.db.map (Slot.view me))[d]? = _
      rw [List.getElem?_map, hs, Option.map_some, hv]
    rw [hset] at hseen
    exact hseen

/-! ### What every run keeps -/

/-- A token hash belongs to one row, and to one user, for good. -/
def World.Keyed (w : World) : Prop :=
  ∀ {d d' : Nat} {t t' : RefreshToken}, w.Reads (.ever Record 0) d (.refresh_token t) →
    w.Reads (.ever Record 0) d' (.refresh_token t') → t.token_hash = t'.token_hash →
    d = d' ∧ t.user_id = t'.user_id

/-- No session of the user is older than place `n`. -/
structure NoSession (u : Uuid) (n : Nat) (w : World) : Prop where
  length : n ≤ w.db.length
  later : ∀ {d : Nat} {s : Session}, w.Reads (.live Record 0) d (.session s) → s.sub = u → n ≤ d

/-- The user's refresh tokens older than place `n` are revoked. -/
structure Revoked (u : Uuid) (n : Nat) (w : World) : Prop where
  length : n ≤ w.db.length
  revoked : ∀ {d : Nat} {t : RefreshToken}, w.Reads (.live Record 0) d (.refresh_token t) →
    t.user_id = u → d < n → t.revoked = some true

section Steps

variable {c : Crates} {o : Op} {ch : Choice} {w w' : World} {r : o.Reply} {u : Uuid} {n : Nat}

theorem NoSession.step (hI : NoSession u n w) (ht : ∀ {q}, o.statement = some q → Tame q)
    (h : World.answer c 0 o ch w = some (w', r)) : NoSession u n w' := by
  refine ⟨Nat.le_trans hI.length (length_of_answer h), fun {d s} hd hs => ?_⟩
  rcases session_origin ht h hd with hold | hnew
  · exact hI.later hold hs
  · rw [hnew]
    exact hI.length

theorem Revoked.step (hI : Revoked u n w) (ht : ∀ {q}, o.statement = some q → Tame q)
    (h : World.answer c 0 o ch w = some (w', r)) : Revoked u n w' := by
  refine ⟨Nat.le_trans hI.length (length_of_answer h), fun {d t} hd hu hlt => ?_⟩
  rcases token_origin ht h hd with ⟨t₀, hold, -, hid, hrev⟩ | ⟨hnew, -⟩
  · exact hrev (hI.revoked hold (hid ▸ hu) hlt)
  · have := hI.length
    omega

/-- A statement keeps the keys if a token it adds has a hash of its own. -/
theorem World.Keyed.step (hI : w.Keyed) (ht : ∀ {q}, o.statement = some q → Tame q)
    (hnew : ∀ {q t}, o.statement = some q → q.Inserts (.refresh_token t) →
      (∀ {t'}, q.Inserts (.refresh_token t') → t' = t) ∧
        ∀ {d t'}, w.Reads (.ever Record 0) d (.refresh_token t') → t'.token_hash ≠ t.token_hash)
    (h : World.answer c 0 o ch w = some (w', r)) : w'.Keyed := by
  intro d d' t t' hd hd' hhash
  rcases token_origin ht h hd with ⟨t₀, hold, hh, hu, -⟩ | ⟨hlen, q, hq, hi⟩ <;>
    rcases token_origin ht h hd' with ⟨t₀', hold', hh', hu', -⟩ | ⟨hlen', q', hq', hi'⟩
  · obtain ⟨hdd, huu⟩ := hI hold hold' (by rw [← hh, ← hh', hhash])
    exact ⟨hdd, by rw [hu, hu', huu]⟩
  · exact absurd (hh ▸ hhash) ((hnew hq' hi').2 hold)
  · exact absurd (hh' ▸ hhash.symm) ((hnew hq hi).2 hold')
  · cases hq.symm.trans hq'
    cases (hnew hq hi).1 hi'
    exact ⟨hlen.trans hlen'.symm, rfl⟩

theorem World.Keyed.harmless (hI : w.Keyed) (ho : Harmless o)
    (h : World.answer c 0 o ch w = some (w', r)) : w'.Keyed :=
  hI.step (fun hq => (ho _ hq).1) (fun hq hi => absurd hi ((ho _ hq).2 _)) h

end Steps

/-- The sweeps do what they attempt, a listing for a user names all their sessions, and a drawn
token hashes to nothing stored before. -/
structure Calm (c : Crates) (w : World) (o : Op) (ch : Choice) : Prop where
  sweeps : Revocation o → ch ≠ .fail
  listing : ∀ {u : Uuid}, o = .list_sessions (some u) → ∃ l, ch = .sessions l ∧ AllListed u l w
  fresh : ∀ {n : Nat} {bytes : List UInt8}, o = .fill n → ch = .bytes bytes →
    ∀ {d : Nat} {t : RefreshToken}, w.Reads (.ever Record 0) d (.refresh_token t) →
      t.token_hash ≠ hash_token c (base64url bytes)

section Runs

variable {Reg Cred : Type} {c : Crates} {jwt_svc : JwtService} {wa : Webauthn Reg Cred}
  {w w' : World} {u : Uuid} {n : Nat}

theorem keyed_uses {α : Type} {p : Handler α} (hp : p.Uses Harmless) :
    Keeps c 0 (Calm c) World.Keyed p :=
  keeps_of_uses hp fun _ _ _ _ _ ho _ hans hk => World.Keyed.harmless hk ho hans

theorem Orderly.keyed {α : Type} {p : Handler α} (hp : Orderly c 0 Plain p) :
    Keeps c 0 (Calm c) World.Keyed p :=
  keyed_uses (uses_mono hp.uses fun _ => Plain.harmless)

/-- A new refresh token gets a hash no row has had. -/
theorem issue_token_pair_with_keyed (hsvc : jwt_svc.crates = c) (ex : Executor) (user_id : Uuid)
    (issuer : String) :
    Keeps c 0 (Calm c) World.Keyed (jwt_svc.issue_token_pair_with ex user_id issuer).run := by
  refine keeps_bindE (Orderly.keyed (.attempt (.quiet trivial fun h => h))) fun access_token => ?_
  intro w hk
  refine ends_of_endsE ?_
  -- the draw, the two readings of the clock and the insert, as one
  refine endsE_bind (endsE_lift (ends_bind (ends_ask ?_)))
  intro ch w₁ bytes hch hans
  obtain ⟨rfl, rfl⟩ := World.answer_fill hans
  refine ends_ret (endsE_bind (endsE_lift (ends_now fun t₁ => ?_)))
  refine endsE_bind (endsE_lift (ends_now fun t₂ => ?_))
  refine ends_bind (ends_mono (ends_bind (ends_bind (ends_ask fun ch w₂ r _ hans₂ => ?_)))
    fun w₂ r (h : w₂.Keyed) => ?_)
  · have hk₂ : w₂.Keyed := by
      refine hk.step (TokenInsert.tame ⟨ex, _, rfl⟩) (fun {q t} hq hi => ?_) hans₂
      cases hq
      obtain ⟨key, hkey⟩ := hi
      cases hkey
      refine ⟨fun {t'} hi' => ?_, fun hread => ?_⟩
      · obtain ⟨key', hkey'⟩ := hi'
        cases hkey'
        rfl
      · rw [hsvc]
        exact hch.fresh rfl rfl hread
    cases refresh_tokens.decodeOne r
    · exact ends_ret (ends_ret hk₂)
    · exact ends_ret (ends_ret hk₂)
  · cases r <;> exact ends_ret h

theorem refresh_keyed (hsvc : jwt_svc.crates = c) (cmd : RefreshCmd) :
    Keeps c 0 (Calm c) World.Keyed (jwt_svc.refresh cmd).run := by
  unfold JwtService.refresh
  dsimp only
  by_cases he : (trim cmd.refresh_token).isEmpty = true
  · rw [if_pos he]
    exact keeps_ret _
  rw [if_neg he]
  refine keeps_bindE (Orderly.keyed (.attempt .begin_tx)) fun _ => ?_
  refine keeps_bind ?_ fun r => keeps_bind
    (keyed_uses (uses_ask (Plain.harmless .rollback))) fun _ => keeps_ret _
  refine keeps_bindE (keyed_uses (uses_mono (get_refresh_token_by_hash_uses _)
    fun _ => Plain.harmless)) fun row => ?_
  by_cases hr : row.revoked = true
  · rw [if_pos hr]
    exact keeps_ret _
  rw [if_neg hr]
  refine keeps_bindE (Orderly.keyed (.lift utc_now_orderly)) fun now => ?_
  by_cases hx : row.expires_at < (now : Time)
  · rw [if_pos hx]
    exact keeps_ret _
  rw [if_neg hx]
  refine keeps_bindE (Orderly.keyed (.attempt (.quiet trivial fun h => h))) fun user => ?_
  refine keeps_bindE (keyed_uses (uses_mono (P := Plain) (Prog.uses_bindE
    (uses_attempt (uses_delete (.token_delete _ _))) fun _ => trivial) fun _ => Plain.harmless))
    fun _ => ?_
  refine keeps_bindE (issue_token_pair_with_keyed hsvc _ _ _) fun _ => ?_
  exact keeps_bindE (keyed_uses (uses_attempt (uses_ask (Plain.harmless .commit)))) fun _ =>
    keeps_ret _

theorem Request.keyed (hsvc : jwt_svc.crates = c) (req : Request Reg Cred) :
    Keeps c 0 (Calm c) World.Keyed (req.handler c jwt_svc wa) := by
  by_cases hi : req.issues
  · cases req with
    | refresh cmd =>
        exact keeps_bind (refresh_keyed hsvc cmd) fun r => by cases r <;> exact keeps_ret _
    | jwt cookie =>
        refine keeps_bind (Orderly.keyed (.quiet trivial fun h => h)) fun session => ?_
        change Option Identity at session
        cases session with
        | none => exact keeps_ret _
        | some id =>
            exact keeps_bind (issue_token_pair_with_keyed hsvc .pool _ _) fun r => by
              cases r <;> exact keeps_ret _
    | _ => exact hi.elim
  · exact keyed_uses (uses_mono (req.uses c jwt_svc wa) fun o ho =>
      (req.harmless ho).resolve_right fun h => hi h.1)

/-- What all requests do to sessions and refresh tokens is tame. -/
theorem Request.keeps {admits : World → Op → Choice → Prop} {I : World → Prop}
    (hstep : ∀ (o : Op) ch w w' r, (∀ {q}, o.statement = some q → Tame q) →
      World.answer c 0 o ch w = some (w', r) → I w → I w') (req : Request Reg Cred) :
    Keeps c 0 admits I (req.handler c jwt_svc wa) :=
  keeps_of_uses (req.uses c jwt_svc wa) fun _ _ _ _ _ ho _ hans hI =>
    hstep _ _ _ _ _ (fun hq => req.tame ho hq) hans hI

/-- What holds at all times of a service that has been running: no transaction open between
requests, and every token hash in one place. -/
structure Running (w : World) : Prop where
  settled : w.Settled 0
  keyed : w.Keyed

theorem Running.runs (hsvc : jwt_svc.crates = c) (hw : Running w)
    {served : List (Request Reg Cred × HttpResponse)}
    (h : Runs c jwt_svc wa (Calm c) w served w') : Running w' := by
  refine h.invariant (fun req resp w w' hI hrun => ?_) (fun e w hI => ?_) hw
  · exact ⟨(req.orderly jwt_svc wa).settles hI.settled _ _ hrun,
      req.keyed hsvc w hI.keyed _ _ hrun⟩
  · have hdb := World.expire_db e w
    refine ⟨?_, ?_⟩
    · rw [World.Settled, hdb]
      exact hI.settled
    · unfold World.Keyed World.Reads
      rw [hdb]
      exact hI.keyed

end Runs

end Authnz
