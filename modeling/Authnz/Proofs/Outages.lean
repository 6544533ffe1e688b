/-
What a rotation revokes when the storage fails.

Both handlers that rotate a password log a failed sweep and go on.  The listing of the
sessions may fail, or name only some of them: it is a page, and may be an old one.
For every listing and every pattern of failures (the deletion of each session, the
update of the refresh tokens) the sweeps leave exactly what they could not take, and
the answer is 200 all the same: it is right exactly when there was nothing to leave.
-/
import Authnz.Proofs.Older
import Authnz.Proofs.Accounts
import Authnz.Proofs.ChangeHandler

namespace Authnz

open Basis

/-- What the listing of the sessions returns, and which statements of the sweeps fail. -/
structure Outage where
  list : Except ApiError (List Session)
  /-- The deletion of the session with this id. -/
  delete : Uuid → Bool
  tokens : Bool

namespace Outage

/-- The sessions the listing names. -/
def named (F : Outage) : List Session := F.list.toOption.getD []

/-- The sweep takes the session: it is named, and its deletion works. -/
def takes (F : Outage) (s : Session) : Bool := listed F.named s && !F.delete s.id

/-- The choice behind the listing. -/
def listing (F : Outage) : Choice :=
  match F.list with
  | .ok l => .sessions l
  | .error e => .refuse e

end Outage

/-- The runs with this listing in which exactly these deletions and updates fail, and whatever else
may. -/
structure Outage.admits (F : Outage) (_ : World) (o : Op) (ch : Choice) : Prop where
  list : ∀ u, o = .list_sessions (some u) → ch = F.listing
  delete : ∀ id, o = .sql (.write .pool (sessions.sel fun s => s.id == id) Relation.del) →
    (ch = .fail ↔ F.delete id = true)
  tokens : ∀ u, o = .sql (.write .pool (refresh_tokens.sel fun r => r.user_id == u)
      (refresh_tokens.set fun r => { r with revoked := some true })) →
    (ch = .fail ↔ F.tokens = true)

section Sweeps

variable {c : Crates} {me : Nat} {F : Outage} {u : Uuid} {w w₁ w₂ w₃ w₄ : World}

/-- The loop deletes exactly the listed sessions whose deletion works. -/
theorem delete_each_under (l : List Session) (hset : w.Settled me) :
    Ends c me F.admits (SessionService.delete_each l) w fun w' _ =>
      w'.places = w.places.map (Desk.rewrite (sessions.sel
          (listed (l.filter fun s => !F.delete s.id))) Relation.del) ∧
        w'.Settled me ∧ w' = { w with db := w'.db } :=
  delete_each_failing (fun _ _ _ hch => hch.delete _ rfl) l hset

/-- After the sweep of the sessions: those are left that it did not take, and the refresh tokens are
as they were. -/
structure PartSwept (F : Outage) (u : Uuid) (before after : World) : Prop where
  sessions : ∀ {d : Nat} {s : Session}, before.places[d]? = some (some (.session s)) → s.sub = u →
    after.places[d]? = some (if F.takes s then none else some (.session s))
  tokens : ∀ {d : Nat} {r : RefreshToken}, before.places[d]? = some (some (.refresh_token r)) →
    after.places[d]? = some (some (.refresh_token r))

theorem PartSwept.of_places {l : List Session}
    (h : w₁.places = w.places.map (Desk.rewrite (Authnz.sessions.sel (listed l)) Relation.del))
    (hl : ∀ s : Session, listed l s = F.takes s) : PartSwept F u w w₁ := by
  refine ⟨fun {d s} hd _ => ?_, fun {d r} hd => ?_⟩
  · rw [h, List.getElem?_map, hd, Option.map_some, rewrite_listed_session, hl]
  · rw [h, List.getElem?_map, hd, Option.map_some, rewrite_other (T := Authnz.sessions) rfl]

theorem revoke_all_for_user_under (hset : w.Settled me) (u : Uuid) :
    Ends c me F.admits (SessionService.revoke_all_for_user u).run w fun w' _ =>
      PartSwept F u w w' ∧ w'.Settled me := by
  refine ends_of_endsE (endsE_bind (endsE_list (fun l hch _ => ?_) fun e hch => ?_))
  · have hnamed : F.named = l := by
      have hlist := hch.list u rfl
      unfold Outage.listing at hlist
      split at hlist
      · rename_i l' hl'
        cases hlist
        simp [Outage.named, hl', Except.toOption]
      · cases hlist
    refine endsE_lift (ends_mono (delete_each_under l hset) ?_)
    intro w' _ hpost
    obtain ⟨hplaces, hset', _⟩ := hpost
    exact ⟨.of_places hplaces fun s => by rw [listed_filter, Outage.takes, hnamed], hset'⟩
  · have hnamed : F.named = [] := by
      have hlist := hch.list u rfl
      unfold Outage.listing at hlist
      split at hlist
      · cases hlist
      · rename_i e' he'
        simp [Outage.named, he', Except.toOption]
    refine ⟨.of_places (l := []) (rewrite_listed_nil w).symm fun s => ?_, hset⟩
    rw [Outage.takes, hnamed]
    rfl

/-- What the update of the refresh tokens makes of the committed rows. -/
def Outage.revokes (F : Outage) (u : Uuid) (places : List (Option Record)) : List (Option Record) :=
  if F.tokens then places
  else places.map (Desk.rewrite (refresh_tokens.sel fun r => r.user_id == u)
    (refresh_tokens.set fun r => { r with revoked := some true }))

theorem revoke_all_user_tokens_under (hset : w.Settled me) (u : Uuid) :
    Ends c me F.admits (JwtService.revoke_all_user_tokens u).run w fun w' _ =>
      w'.places = F.revokes u w.places := by
  by_cases htokens : F.tokens = true
  · have hsame : w.places = F.revokes u w.places := by rw [Outage.revokes, if_pos htokens]
    exact ends_of_endsE (endsE_bind (endsE_write_fails
      (fun ch hch => (hch.tokens u rfl).mpr htokens) fun _ => hsame))
  · refine ends_of_endsE (endsE_bind (endsE_update (fun w' _ hdesk => endsE_ret ?_) fun _ hfail =>
      absurd ((hfail.tokens u rfl).mp rfl) htokens))
    rw [(places_of_write hset hdesk).2, Outage.revokes, if_neg htokens]

/-- The listing names every session of the user, and nothing that fails had anything to revoke. -/
structure Outage.Harmless (F : Outage) (u : Uuid) (before : World) : Prop where
  sessions : ∀ (d : Nat) (s : Session), before.places[d]? = some (some (.session s)) → s.sub = u →
    listed F.named s = true ∧ F.delete s.id = false
  tokens : ∀ (d : Nat) (r : RefreshToken), before.places[d]? = some (some (.refresh_token r)) →
    r.user_id = u → r.revoked ≠ some true → F.tokens = false

/-- Both sweeps done, as far as they work: everything from before is revoked exactly if there was
nothing to leave. -/
theorem PartSwept.complete_iff (h : PartSwept F u w w₂) {more : List (Option Record)}
    (hmore : w₃.places = w₂.places ++ more) (hrevoke : w₄.places = F.revokes u w₃.places) :
    Swept u w w₄ ↔ F.Harmless u w := by
  have hthird : ∀ {d : Nat} {x : Option Record}, w₂.places[d]? = some x → w₃.places[d]? = some x := by
    intro d x hd
    rw [hmore, List.getElem?_append_left (List.getElem?_eq_some_iff.mp hd).1, hd]
  have hsession : ∀ {d : Nat} {s : Session}, w.places[d]? = some (some (.session s)) → s.sub = u →
      w₄.places[d]? = some (if F.takes s then none else some (.session s)) := by
    intro d s hd hs
    have hd₃ := hthird (h.sessions hd hs)
    rw [hrevoke, Outage.revokes]
    by_cases htokens : F.tokens = true
    · rw [if_pos htokens, hd₃]
    · rw [if_neg htokens, List.getElem?_map, hd₃, Option.map_some]
      by_cases htaken : F.takes s = true
      · rw [if_pos htaken, Desk.rewrite_none]
      · rw [if_neg htaken, rewrite_other (T := refresh_tokens) rfl]
  have htoken : ∀ {d : Nat} {r : RefreshToken}, w.places[d]? = some (some (.refresh_token r)) →
      r.user_id = u → w₄.places[d]? = some (some (.refresh_token
        (if F.tokens then r else { r with revoked := some true }))) := by
    intro d r hd hr
    have hd₃ := hthird (h.tokens hd)
    rw [hrevoke, Outage.revokes]
    by_cases htokens : F.tokens = true
    · rw [if_pos htokens, if_pos htokens, hd₃]
    · rw [if_neg htokens, if_neg htokens, List.getElem?_map, hd₃, Option.map_some, Desk.rewrite_hit]
      · rfl
      · simp [Relation.sel, refresh_tokens, hr]
  constructor
  · intro hsw
    refine ⟨fun d s hd hs => ?_, fun d r hd hr hrev => ?_⟩
    · have hgone := hsw.gone hd hs
      rw [hsession hd hs] at hgone
      by_cases htaken : F.takes s = true
      · simpa [Outage.takes] using htaken
      · rw [if_neg htaken] at hgone
        cases hgone
    · obtain ⟨r', hr', hrev'⟩ := hsw.revoked hd hr
      rw [htoken hd hr] at hr'
      cases htokens : F.tokens with
      | false => rfl
      | true =>
          rw [htokens, if_pos rfl] at hr'
          cases hr'
          exact absurd hrev' hrev
  · intro hno
    refine ⟨fun {d s} hd hs => ?_, fun {d r} hd hr => ⟨_, htoken hd hr, ?_⟩⟩
    · obtain ⟨hlist, hdel⟩ := hno.sessions d s hd hs
      rw [hsession hd hs, Outage.takes, hlist, hdel]
      rfl
    · by_cases hrev : r.revoked = some true
      · by_cases htokens : F.tokens = true
        · rw [if_pos htokens, hrev]
        · rw [if_neg htokens]
      · rw [hno.tokens d r hd hr hrev]
        rfl

end Sweeps

section Success

variable {c : Crates} {me : Nat} {F : Outage} {w : World}

theorem change_under (hset : w.Settled me) (session : Identity) (req : ChangePasswordRequest)
    (params : SessionParams) :
    Ends c me F.admits (handlers.change_password c session req params) w fun w' resp =>
      resp.status = 200 → (Swept session.sub w w' ↔ F.Harmless session.sub w) := by
  have hfail : ∀ (w' : World) e, Ends c me F.admits
      (Prog.ret (auth_error_to_response e) : Handler HttpResponse) w' fun w' resp =>
        resp.status = 200 → (Swept session.sub w w' ↔ F.Harmless session.sub w) :=
    fun w' e => ends_ret fun hok => absurd hok (auth_error_status e)
  refine ends_run (endsE_mono (change_password_ends hset _) ?_ fun w' e _ => hfail w' e)
  intro w₁ _ hpost
  obtain ⟨⟨_, _, _, _, _, hp₁⟩, _, hset₁, _⟩ := hpost
  refine ends_bind (ends_mono (revoke_all_for_user_under hset₁ session.sub) ?_)
  intro w₂ _ hpost
  obtain ⟨hpart₁, hset₂⟩ := hpost
  -- the change itself leaves sessions and refresh tokens alone
  have hkept : ∀ {d : Nat} {r : Record}, w.places[d]? = some (some r) → users.prj r = none →
      w₁.places[d]? = some (some r) := by
    intro d r hd hr
    rw [hp₁, List.getElem?_map, hd, Option.map_some, rewrite_other hr]
  have hpart : PartSwept F session.sub w w₂ :=
    ⟨fun hd hs => hpart₁.sessions (hkept hd rfl) hs, fun hd => hpart₁.tokens (hkept hd rfl)⟩
  refine ends_run (endsE_retrieve (fun w₃ user hdb₃ _ => ?_) fun w' e _ => hfail w' _)
  have hset₃ : w₃.Settled me := by
    rw [World.Settled, hdb₃]
    exact hset₂
  have hp₃ : w₃.places = w₂.places := congrArg (List.map Slot.current) hdb₃
  refine ends_bind (ends_bind (ends_now fun t => ends_ret ?_))
  refine ends_run (endsE_mono (issue_session_ends hset₃ _ params) ?_ fun w' e _ => hfail w' e)
  intro w₄ id hpost
  obtain ⟨s, _, _, _, hp₄, hset₄, _⟩ := hpost
  refine ends_bind (ends_mono (revoke_all_user_tokens_under hset₄ session.sub) ?_)
  intro w₅ _ hp₅
  exact ends_ret fun _ => hpart.complete_iff (hp₄.trans (by rw [hp₃])) hp₅

theorem reset_under (hset : w.Settled me) (u : Uuid) :
    Ends c me F.admits (after_reset u) w fun w' _ =>
      ∀ w₀ : World, (∀ {d : Nat} {r : Record}, w₀.places[d]? = some (some r) → users.prj r = none →
        password_resets.prj r = none → w.places[d]? = some (some r)) →
        (Swept u w₀ w' ↔ F.Harmless u w₀) := by
  refine ends_bind (ends_mono (revoke_all_for_user_under hset u) ?_)
  intro w₁ _ hpost
  obtain ⟨hpart, hset₁⟩ := hpost
  refine ends_bind (ends_mono (revoke_all_user_tokens_under hset₁ u) ?_)
  intro w₂ _ hp₂
  refine ends_ret fun w₀ hkept => ?_
  have hpart₀ : PartSwept F u w₀ w₁ := ⟨fun hd hs => hpart.sessions (hkept hd rfl rfl) hs,
    fun hd => hpart.tokens (hkept hd rfl rfl)⟩
  exact hpart₀.complete_iff (List.append_nil _).symm hp₂

/-- **What success means under failures.** A rotation answered with 200 has revoked everything from
before exactly if the listing named all the user's sessions and nothing that failed had anything to
revoke; a reset rotates the password of the user its token is for. -/
theorem success_revokes_iff (c : Crates) (me : Nat) (F : Outage) (w : World) (hset : w.Settled me) :
    (∀ session req params resp w',
      Prog.Exec (World.answer c) me F.admits (handlers.change_password c session req params)
        w resp w' → resp.status = 200 → (Swept session.sub w w' ↔ F.Harmless session.sub w)) ∧
    (∀ (payload : PasswordResetConfirmRequest) resp w',
      Prog.Exec (World.answer c) me F.admits (handlers.confirm_password_reset c payload) w resp w' →
        resp.status = 200 → ∃ p ∈ w.sees me password_resets,
          p.token_hash = hash_token c payload.token ∧
          (Swept p.user_id w w' ↔ F.Harmless p.user_id w)) := by
  constructor
  · exact fun session req params resp w' hrun hok => change_under hset session req params _ _ hrun hok
  · intro payload resp w' hrun hok
    obtain ⟨p, hp, hhash, w₁, hsvc, hrest⟩ := reset_of_success hset hrun hok
    obtain ⟨⟨salt, now, hplaces⟩, -, hset₁⟩ := confirm_password_reset_ends hset _ _ _ hsvc
    refine ⟨p, hp, hhash, reset_under hset₁ p.user_id _ _ hrest w fun {d r} hd hu hr => ?_⟩
    rw [hplaces, List.getElem?_map, List.getElem?_map, hd, Option.map_some, Option.map_some,
      rewrite_other hr, rewrite_other hu]

end Success

/-! ### Alice changes her password -/

theorem outage_admits_of_smooth {c : Crates} {me : Nat} {w : World} {o : Op} {ch : Choice}
    (h : smooth c me w o ch = true) :
    Outage.admits ⟨.ok [sample_session], fun _ => false, false⟩ w o ch := by
  refine ⟨fun u ho => ?_, fun id ho => ?_, fun u ho => ?_⟩
  · subst ho
    exact beq_iff_eq.mp h
  · subst ho
    exact iff_of_false (by simpa [smooth] using h) Bool.false_ne_true
  · subst ho
    exact iff_of_false (by simpa [smooth] using h) Bool.false_ne_true

/-- Where all is listed and nothing fails, success means that everything was revoked. -/
theorem success_revokes_for_alice : ∃ w' resp,
    Prog.exec? (World.answer sample_crates) 0 (smooth sample_crates 0) smooth_choices alice_changes
      (World.of signed_in) = some (resp, w') ∧
    resp.status = 200 ∧ Swept 7 (World.of signed_in) w' := by
  have hrun : ∃ w' resp, Prog.exec? (World.answer sample_crates) 0 (smooth sample_crates 0)
      smooth_choices alice_changes (World.of signed_in) = some (resp, w') ∧ resp.status = 200 :=
    ⟨_, _, rfl, rfl⟩
  obtain ⟨w', resp, hrun, hok⟩ := hrun
  have hharmless : Outage.Harmless ⟨.ok [sample_session], fun _ => false, false⟩ 7
      (World.of signed_in) :=
    ⟨fun d s hd hs => ⟨all_listed_of_signed_in d s hd hs, rfl⟩, fun _ _ _ _ _ => rfl⟩
  exact ⟨w', resp, hrun, hok, ((success_revokes_iff sample_crates 0
    ⟨.ok [sample_session], fun _ => false, false⟩ (World.of signed_in) (settled_of 0 signed_in)).1
    ⟨7, "alice", "alice@example.com"⟩ change_request _ resp w'
    ((Prog.exec_of_exec? hrun).mono fun _ _ _ => outage_admits_of_smooth) hok).mpr hharmless⟩

/-- The listing of Alice's sessions fails. -/
def listing_fails : Outage := ⟨.error (.Database .other), fun _ => false, false⟩

/-- And the other statements do not. -/
def listing_only_fails (_ : World) (o : Op) (ch : Choice) : Bool :=
  match o with
  | .list_sessions _ => ch == .refuse (.Database .other)
  | _ => ch != .fail

theorem outage_admits_of_listing_fails {w : World} {o : Op} {ch : Choice}
    (h : listing_only_fails w o ch = true) : listing_fails.admits w o ch := by
  refine ⟨fun u ho => ?_, fun id ho => ?_, fun u ho => ?_⟩
  · subst ho
    exact beq_iff_eq.mp h
  · subst ho
    exact iff_of_false (by simpa [listing_only_fails] using h) Bool.false_ne_true
  · subst ho
    exact iff_of_false (by simpa [listing_only_fails] using h) Bool.false_ne_true

/-- **A failed listing is answered with success**, and Alice's old session lives on. -/
theorem success_without_revocation : ∃ w' resp,
    Prog.Exec (World.answer sample_crates) 0 listing_fails.admits
      alice_changes (World.of signed_in) resp w' ∧
      resp.status = 200 ∧ ¬ Swept 7 (World.of signed_in) w' := by
  have hrun : ∃ w' resp, Prog.exec? (World.answer sample_crates) 0 listing_only_fails
      [.go, .number 0, .go, .refuse (.Database .other), .go, .time 0, .time 0, .key 2, .go]
        alice_changes (World.of signed_in) = some (resp, w') ∧ resp.status = 200 ∧
      w'.places[1]? = some (some (.session sample_session)) := ⟨_, _, rfl, rfl, rfl⟩
  obtain ⟨w', resp, hrun, hok, hleft⟩ := hrun
  refine ⟨w', resp, (Prog.exec_of_exec? hrun).mono fun _ _ _ => outage_admits_of_listing_fails, hok,
    fun hswept => ?_⟩
  have hbefore : (World.of signed_in).places[1]? = some (some (.session sample_session)) := rfl
  have hgone := hswept.gone hbefore rfl
  rw [hleft] at hgone
  cases hgone

end Authnz
