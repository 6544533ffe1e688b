/-
A committed password change and what it revokes.

`change_password` commits the new hash and then does five things that may fail, the
sweep of the refresh tokens last.  If the sweeps do not fail when they are attempted,
what is left is whether the listing named every session, and whether the second sweep
is attempted at all: `swept_iff` says exactly when, for every listing and every pattern
of failures in between.
-/
import Authnz.Model.Sample
import Authnz.Proofs.Rotation

namespace Authnz

open Basis

/-- What the listing of the sessions returns, and which of the calls between the two sweeps
fail. -/
structure Failing where
  listing : List Session
  /-- `get_user_by_id` -/
  lookup : Prop
  /-- `issue_session` -/
  issue : Prop

/-- The runs with this pattern of failures, in which the sweeps do what they attempt. -/
structure Failing.admits (F : Failing) (c : Crates) (me : Nat) (user_id : Uuid) (w : World) (o : Op)
    (ch : Choice) : Prop where
  sweeps : Revocation o → ch ≠ .fail
  listing : o = .list_sessions (some user_id) → ch = .sessions F.listing
  lookup : o = .retrieve user_id →
    (F.lookup ↔ ∃ w' e, World.answer c me (.retrieve user_id) ch w = some (w', Except.error e))
  issue : ∀ new, o = session_insert new →
    (F.issue ↔ ∃ w' e, World.answer c me (session_insert new) ch w = some (w', Except.error e))

/-- Caller `me` has done nothing yet. -/
def Newcomer (me : Nat) (w : World) : Prop :=
  ∀ s ∈ w.db, (∀ v, s.lock ≠ some (me, v)) ∧ ∀ v, ⟨some me, v⟩ ∉ s.versions

/-- Caller `me` has committed a new row of the user. -/
def Committed (me : Nat) (user_id : Uuid) (w : World) : Prop :=
  ∃ s ∈ w.db, ∃ u, ⟨some me, some (.user u)⟩ ∈ s.versions ∧ u.id = user_id

/-- Every session of the user that was there before is gone, and every refresh token of theirs
that was there before is revoked. -/
structure Swept (user_id : Uuid) (before after : World) : Prop where
  gone : ∀ {d : Nat} {s : Session}, before.places[d]? = some (some (.session s)) →
    s.sub = user_id → after.places[d]? = some none
  revoked : ∀ {d : Nat} {r : RefreshToken}, before.places[d]? = some (some (.refresh_token r)) →
    r.user_id = user_id →
    ∃ r', after.places[d]? = some (some (.refresh_token r')) ∧ r'.revoked = some true

/-- After the first sweep: the listed sessions are gone, the others and the refresh tokens as they
were. -/
structure HalfSwept (l : List Session) (before after : World) : Prop where
  ended : ∀ {d : Nat} {s : Session}, before.places[d]? = some (some (.session s)) →
    after.places[d]? = some (if listed l s then none else some (.session s))
  kept : ∀ {d : Nat} {r : RefreshToken}, before.places[d]? = some (some (.refresh_token r)) →
    after.places[d]? = some (some (.refresh_token r))

theorem Newcomer.settled {me : Nat} {w : World} (h : Newcomer me w) : w.Settled me :=
  Table.settled_of_idle fun s hs => (h s hs).1

section Sweeps

variable {u : Uuid} {l : List Session} {w w₁ w₂ w₃ : World}

theorem HalfSwept.of_sweep {p : User → Bool} {f : User → User}
    (hchange : w₁.places = w.places.map (Desk.rewrite (users.sel p) (users.set f)))
    (hsweep : w₂.places = w₁.places.map (Desk.rewrite (sessions.sel (listed l)) Relation.del)) :
    HalfSwept l w w₂ := by
  have hkeep : ∀ {d : Nat} {r : Record}, w.places[d]? = some (some r) → users.prj r = none →
      w₁.places[d]? = some (some r) := by
    intro d r hd hr
    rw [hchange, List.getElem?_map, hd, Option.map_some, rewrite_other hr]
  refine ⟨?_, ?_⟩
  · intro d s hd
    rw [hsweep, List.getElem?_map, hkeep hd rfl, Option.map_some, rewrite_listed_session]
  · intro d r hd
    rw [hsweep, List.getElem?_map, hkeep hd rfl, Option.map_some, rewrite_other (T := sessions) rfl]

theorem HalfSwept.gone (h : HalfSwept l w w₂) (hall : AllListed u l w) {d : Nat} {s : Session}
    (hd : w.places[d]? = some (some (.session s))) (hs : s.sub = u) :
    w₂.places[d]? = some none := by
  rw [h.ended hd, if_pos (hall d s hd hs)]

/-- What is still there afterwards, the listing did not name. -/
theorem HalfSwept.named (h : HalfSwept l w w₂) {d : Nat} {s : Session}
    (hd : w.places[d]? = some (some (.session s)))
    (hgone : w₂.places[d]? ≠ some (some (.session s))) : listed l s = true := by
  by_contra hl
  rw [h.ended hd, if_neg hl] at hgone
  exact hgone rfl

/-- If nothing more happens, all depends on the listing and on whether there was a token to
revoke. -/
theorem HalfSwept.all_or_nothing (h : HalfSwept l w w₂) (hsame : w₃.places = w₂.places) :
    Swept u w w₃ ↔ AllListed u l w ∧
      ∀ (d : Nat) (r : RefreshToken), w.places[d]? = some (some (.refresh_token r)) →
        r.user_id = u → r.revoked = some true := by
  constructor
  · intro hsw
    refine ⟨fun d s hd hs => h.named hd fun hleft => ?_, fun d r hd hr => ?_⟩
    · have hgone := hsw.gone hd hs
      rw [hsame, hleft] at hgone
      cases hgone
    · obtain ⟨r', hd', hrev⟩ := hsw.revoked hd hr
      rw [hsame, h.kept hd] at hd'
      cases hd'
      exact hrev
  · rintro ⟨hall, hrev⟩
    refine ⟨fun hd hs => by rw [hsame]; exact h.gone hall hd hs, fun {d r} hd hr =>
      ⟨r, ?_, hrev d r hd hr⟩⟩
    rw [hsame]
    exact h.kept hd

/-- If the second sweep is done, all depends on the listing. -/
theorem HalfSwept.all_listed_iff (h : HalfSwept l w w₂) {s : Session}
    (hsweep : w₃.places = (w₂.places ++ [some (Record.session s)]).map
      (Desk.rewrite (refresh_tokens.sel fun r => r.user_id == u)
        (refresh_tokens.set fun r => { r with revoked := some true }))) :
    Swept u w w₃ ↔ AllListed u l w := by
  have hold : ∀ {d : Nat} {x : Option Record}, w₂.places[d]? = some x →
      (w₂.places ++ [some (Record.session s)])[d]? = some x := by
    intro d x hd
    rw [List.getElem?_append_left (List.getElem?_eq_some_iff.mp hd).1, hd]
  refine ⟨fun hsw d x hd hx => h.named hd fun hleft => ?_, fun hall => ⟨?_, ?_⟩⟩
  · have hgone := hsw.gone hd hx
    rw [hsweep, List.getElem?_map, hold hleft, Option.map_some,
      rewrite_other (T := refresh_tokens) rfl] at hgone
    cases hgone
  · intro d x hd hx
    rw [hsweep, List.getElem?_map, hold (h.gone hall hd hx)]
    rfl
  · intro d r hd hr
    refine ⟨{ r with revoked := some true }, ?_, rfl⟩
    rw [hsweep, List.getElem?_map, hold (h.kept hd), Option.map_some, Desk.rewrite_hit]
    · rfl
    · simp [Relation.sel, refresh_tokens, hr]

end Sweeps

/-- **What a committed change revokes.** Whatever it answers, the handler has swept everything from
before exactly if the listing named every session of the user, and neither of the two calls
between its sweeps failed or there was no refresh token left to revoke. -/
theorem swept_iff (c : Crates) (me : Nat) (F : Failing) (w w' : World) (session : Identity)
    (req : ChangePasswordRequest) (params : SessionParams) (resp : HttpResponse)
    (hnew : Newcomer me w)
    (hrun : Prog.Exec (World.answer c) me (F.admits c me session.sub)
      (handlers.change_password c session req params) w resp w')
    (hdone : Committed me session.sub w') :
    Swept session.sub w w' ↔ AllListed session.sub F.listing w ∧ ((¬ F.lookup ∧ ¬ F.issue) ∨
      ∀ (d : Nat) (r : RefreshToken), w.places[d]? = some (some (.refresh_token r)) →
        r.user_id = session.sub → r.revoked = some true) := by
  have hset := hnew.settled
  have hwork : ∀ w o, Revocation o → ¬ F.admits c me session.sub w o .fail :=
    fun w o ho h => h.sweeps ho rfl
  suffices h : Ends c me (F.admits c me session.sub) (handlers.change_password c session req params)
      w fun w' _ => Committed me session.sub w' → (Swept session.sub w w' ↔
        AllListed session.sub F.listing w ∧ ((¬ F.lookup ∧ ¬ F.issue) ∨
          ∀ (d : Nat) (r : RefreshToken), w.places[d]? = some (some (.refresh_token r)) →
            r.user_id = session.sub → r.revoked = some true)) from h resp w' hrun hdone
  refine ends_run (endsE_mono (change_password_ends hset _) ?_ ?_)
  · rintro w₁ - ⟨⟨u, us, salt, -, -, hchange⟩, -, hset₁, -⟩
    refine ends_run (endsE_mono (revoke_all_for_user_ends hwork hset₁ session.sub
      (P := (· = F.listing)) fun ch hch => ⟨_, hch.listing rfl, rfl⟩) ?_ fun w' e hf => hf.elim)
    rintro w₂ - ⟨_, rfl, hsweep, hset₂, -⟩
    have hhalf : HalfSwept F.listing w w₂ := .of_sweep hchange hsweep
    refine ends_run (endsE_attempt (ends_ask ?_))
    intro ch w₃ r hch hans
    have hdb₃ : w₃.db = w₂.db := World.answer_quiet
      (show World.Quiet (.retrieve session.sub) from trivial) hans
    have hsame : w₃.places = w₂.places := congrArg (List.map Slot.current) hdb₃
    cases r with
    | error e =>
        have hlookup : F.lookup := (hch.lookup rfl).mpr ⟨w₃, e, hans⟩
        refine ends_ret fun _ => ?_
        rw [hhalf.all_or_nothing hsame]
        exact and_congr_right fun _ =>
          ⟨.inr, fun h => h.resolve_left fun hno => hno.1 hlookup⟩
    | ok user =>
        have hlookup : ¬ F.lookup := fun hl => by
          obtain ⟨w', e, hans'⟩ := (hch.lookup rfl).mp hl
          rw [hans] at hans'
          cases hans'
        have hset₃ : w₃.Settled me := by
          rw [World.Settled, hdb₃]
          exact hset₂
        refine ends_bind (ends_bind (ends_now fun t => ends_ret ?_))
        refine ends_run (endsE_bind (endsE_lift (ends_now fun t' => endsE_bind (endsE_attempt
          (ends_bind (ends_ask ?_))))))
        intro ch' w₄ r' hch' hans'
        obtain ⟨out, -, hdb, hw₄⟩ := World.answer_sql hans'
        have hissue := hch'.issue _ rfl
        rcases SqlOp.alone_insert hdb with ⟨key, -, -, hdesk, rfl⟩ | hfail
        · -- the new session is there: the second sweep is attempted
          have hno : ¬ F.issue := fun hi => by
            obtain ⟨w', e, hans''⟩ := hissue.mp hi
            have heq := hans'.symm.trans hans''
            cases heq
          obtain ⟨hset₄, hplaces⟩ := places_of_insert hset₃ hdesk
          refine ends_ret (endsE_ret (ends_run (endsE_mono
            (revoke_all_user_tokens_ends hwork hset₄ session.sub) ?_ fun w' e hf => hf.elim)))
          rintro w₅ - ⟨hsweep', -, -⟩
          refine ends_ret fun _ => ?_
          rw [hplaces, hsame] at hsweep'
          rw [hhalf.all_listed_iff hsweep']
          exact (and_iff_left (.inl ⟨hlookup, hno⟩)).symm
        · obtain ⟨hi, hdb₄⟩ : F.issue ∧ w₄.db = w₃.db := by
            rcases hfail with ⟨key, -, -, ht, rfl⟩ | ⟨-, ht, rfl⟩
            · exact ⟨hissue.mpr ⟨w₄, _, hans'⟩, ht⟩
            · exact ⟨hissue.mpr ⟨w₄, _, hans'⟩, ht⟩
          have hsame₄ : w₄.places = w₂.places := by
            rw [← hsame]
            exact congrArg (List.map Slot.current) hdb₄
          have hiff : Swept session.sub w w₄ ↔ AllListed session.sub F.listing w ∧
              ((¬ F.lookup ∧ ¬ F.issue) ∨ ∀ (d : Nat) (r : RefreshToken),
                w.places[d]? = some (some (.refresh_token r)) → r.user_id = session.sub →
                r.revoked = some true) := by
            rw [hhalf.all_or_nothing hsame₄]
            exact and_congr_right fun _ =>
              ⟨.inr, fun h => h.resolve_left fun hno => hno.2 hi⟩
          rcases hfail with ⟨key, -, -, -, rfl⟩ | ⟨-, -, rfl⟩
          · exact ends_ret (ends_ret fun _ => hiff)
          · exact ends_ret (ends_ret fun _ => hiff)
  · rintro w' e rfl
    refine ends_ret fun hcom => ?_
    obtain ⟨s, hs, u, hu, -⟩ := hcom
    exact absurd hu ((hnew s hs).2 _)

/-! ### Two runs -/

/-- A user with a session and a refresh token. -/
def signed_in : List Record :=
  [.user (sample_user "old password"), .session sample_session,
    .refresh_token (sample_token (token_of 1))]

theorem newcomer_of (me : Nat) (rows : List Record) : Newcomer me (World.of rows) := by
  intro s hs
  obtain ⟨r, -, rfl⟩ := List.mem_map.mp hs
  exact ⟨fun v => by simp [Slot.loaded], fun v => by simp [Slot.loaded]⟩

/-- Nothing fails, and the listing returns Alice's session. -/
def smooth (c : Crates) (me : Nat) (w : World) (o : Op) (ch : Choice) : Bool :=
  match o with
  | .list_sessions _ => ch == .sessions [sample_session]
  | .retrieve id =>
      match World.answer c me (.retrieve id) ch w with
      | some (_, .ok _) => true
      | _ => false
  | .sql (.insert ex mk clash) =>
      match World.answer c me (.sql (.insert ex mk clash)) ch w with
      | some (_, .ok _) => true
      | _ => false
  | _ => ch != .fail

theorem admits_of_smooth {c : Crates} {me : Nat} {user_id : Uuid} {w : World} {o : Op} {ch : Choice}
    (h : smooth c me w o ch = true) :
    Failing.admits ⟨[sample_session], False, False⟩ c me user_id w o ch := by
  refine ⟨?_, ?_, ?_, ?_⟩
  · rintro (id | u) rfl <;> simp [smooth] at h
  · rintro rfl
    simpa [smooth] using h
  · rintro rfl
    refine iff_of_false not_false ?_
    rintro ⟨w', e, hans⟩
    simp [smooth, hans] at h
  · rintro new rfl
    refine iff_of_false not_false ?_
    rintro ⟨w', e, hans⟩
    simp only [smooth, session_insert] at h hans
    rw [hans] at h
    simp at h

def change_request : ChangePasswordRequest := ⟨"old password", "violet ladder engine cactus"⟩

/-- Alice changes her password, from the session she has. -/
def alice_changes : Handler HttpResponse :=
  handlers.change_password sample_crates ⟨7, "alice", "alice@example.com"⟩ change_request
    ⟨"10.0.0.1", "browser"⟩

def smooth_choices : List Choice :=
  [.go, .number 0, .go, .sessions [sample_session], .go, .go, .time 0, .time 0, .key 2, .go]

/-- The listing names the one session Alice has. -/
theorem all_listed_of_signed_in : AllListed 7 [sample_session] (World.of signed_in) := by
  intro d s hd hs
  rcases d with _ | _ | _ | d
  · cases hd
  · cases hd
    rfl
  · cases hd
  · cases hd

theorem swept_when_smooth : ∃ w' resp,
    Prog.exec? (World.answer sample_crates) 0 (smooth sample_crates 0) smooth_choices alice_changes
      (World.of signed_in) = some (resp, w') ∧
    Committed 0 7 w' ∧ Swept 7 (World.of signed_in) w' := by
  have hrun : ∃ w' resp, Prog.exec? (World.answer sample_crates) 0 (smooth sample_crates 0)
      smooth_choices alice_changes (World.of signed_in) = some (resp, w') ∧ Committed 0 7 w' :=
    ⟨_, _, rfl, _, List.mem_cons_self, _, List.mem_cons_self, rfl⟩
  obtain ⟨w', resp, hrun, hdone⟩ := hrun
  exact ⟨w', resp, hrun, hdone, (swept_iff sample_crates 0 ⟨[sample_session], False, False⟩
    (World.of signed_in) w' _ _ _ resp (newcomer_of 0 signed_in)
    ((Prog.exec_of_exec? hrun).mono fun _ _ _ => admits_of_smooth) hdone).mpr
    ⟨all_listed_of_signed_in, .inl ⟨not_false, not_false⟩⟩⟩

/-- The same up to the lookup, which fails. -/
def lookup_fails (_ : World) (o : Op) (ch : Choice) : Bool :=
  match o with
  | .retrieve _ => ch == .fail
  | .sql (.insert _ _ _) => false
  | .list_sessions _ => ch == .sessions [sample_session]
  | _ => ch != .fail

theorem admits_of_lookup_fails {c : Crates} {me : Nat} {user_id : Uuid} {w : World} {o : Op}
    {ch : Choice} (h : lookup_fails w o ch = true) :
    Failing.admits ⟨[sample_session], True, False⟩ c me user_id w o ch := by
  refine ⟨?_, ?_, ?_, ?_⟩
  · rintro (id | u) rfl <;> simp [lookup_fails] at h
  · rintro rfl
    simpa [lookup_fails] using h
  · rintro rfl
    obtain rfl : ch = .fail := by simpa [lookup_fails] using h
    exact iff_of_true trivial ⟨w, .Database .other, rfl⟩
  · rintro new rfl
    simp [lookup_fails, session_insert] at h

/-- **A failed lookup leaves the refresh tokens alive** after a committed change. -/
theorem tokens_outlive_change : ∃ w' resp,
    Prog.Exec (World.answer sample_crates) 0
        (Failing.admits ⟨[sample_session], True, False⟩ sample_crates 0 7)
      alice_changes (World.of signed_in) resp w' ∧
      Committed 0 7 w' ∧ ¬ Swept 7 (World.of signed_in) w' := by
  have hrun : Prog.exec? (World.answer sample_crates) 0 lookup_fails
      [.go, .number 0, .go, .sessions [sample_session], .go, .fail] alice_changes
      (World.of signed_in) = some (_, _) := rfl
  refine ⟨_, _, (Prog.exec_of_exec? hrun).mono fun _ _ _ => admits_of_lookup_fails,
    ⟨_, List.mem_cons_self, _, List.mem_cons_self, rfl⟩, ?_⟩
  intro h
  have htoken : (World.of signed_in).places[2]? =
      some (some (.refresh_token (sample_token (token_of 1)))) := rfl
  obtain ⟨r, hr, hrev⟩ := h.revoked htoken rfl
  have hr' : some (some (Record.refresh_token (sample_token (token_of 1)))) =
    some (some (.refresh_token r)) := hr
  cases hr'
  cases hrev

end Authnz
