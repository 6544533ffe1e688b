/-
Where sessions come from.

Four handlers insert a session, and each copies an account's id, username and email into
it: a login from the row whose hash it verified, the others from the repository's copy of
it.  Every copy agrees with its account (`Accountable`), in every state requests lead to.

The rest of what requests do is `Modest`: it adds no session, changes no account's names
and leaves the challenges alone.  So what a request adds, it adds at one place of its
text, and `Request.issued` says what that is.
-/
import Authnz.Proofs.Logins
import Authnz.Proofs.Origins

namespace Authnz

open Basis

/-! ### Accounts and their copies -/

/-- What a session copies of an account. -/
structure Account where
  id : Uuid
  username : String
  email : String
  deriving DecidableEq

def Account.of (u : User) : Account := ⟨u.id, u.username, u.email⟩

/-- An update sets no column of these but the username. -/
def Account.update (a : Account) (dto : UpdateUser) : Account :=
  { a with username := dto.username.getD a.username }

/-- What a record shows of an account. -/
def account (r : Record) : Option Account := (users.prj r).map Account.of

def World.HasAccount (w : World) (a : Account) : Prop := ∃ d, w.look account d = some a

/-- The accounts have names of their own, and what the user repository holds is a copy of one. -/
structure Accountable (w : World) : Prop where
  level : w.Level 0 account
  distinct : ∀ {d d' : Nat} {a a' : Account}, w.look account d = some a →
    w.look account d' = some a' → (a.id = a'.id ∨ a.username = a'.username ∨ a.email = a'.email) →
    d = d'
  copies : ∀ {id : Uuid} {x : { u : UserResponse // u.id = id }}, w.user_cache id = some x →
    w.HasAccount ⟨id, x.1.username, x.1.email⟩

section Accounts

variable {c : Crates} {w w' : World} {o : Op} {ch : Choice} {r : o.Reply}

theorem account_of_user {d : Nat} {u : User} (h : w.row users d = some u) :
    w.look account d = some (Account.of u) := by
  rw [show w.look account d = _ from look_map, h]
  rfl

theorem user_of_account {d : Nat} {a : Account} (h : w.look account d = some a) :
    ∃ u, w.row users d = some u ∧ a = Account.of u := by
  rw [show w.look account d = _ from look_map] at h
  obtain ⟨u, hu, rfl⟩ := Option.map_eq_some_iff.mp h
  exact ⟨u, hu, rfl⟩

/-- Two accounts share a name exactly if their rows clash. -/
theorem clash_iff {u v : User} :
    users.clash u v = true ↔ u.id = v.id ∨ u.username = v.username ∨ u.email = v.email := by
  simp [users, or_assoc]

/-- Nothing but a lookup and an update touches the repository's copies. -/
theorem user_cache_of_answer {me : Nat} (hr : ∀ id, o ≠ .retrieve id)
    (hu : ∀ id dto, o ≠ .update id dto) (hans : World.answer c me o ch w = some (w', r)) :
    w'.user_cache = w.user_cache := by
  cases o with
  | sql q =>
      obtain ⟨-, -, -, hw⟩ := World.answer_sql hans
      rw [hw]
  | retrieve id => exact absurd rfl (hr id)
  | update id dto => exact absurd rfl (hu id dto)
  | reg_set k s | reg_delete k | auth_set k s | auth_delete k =>
      rcases World.doneOr_iff.mp hans with ⟨-, heq⟩ | ⟨-, heq⟩ <;> cases heq <;> rfl
  | tokens_insert k e | tokens_remove k | links_insert k e | links_remove k =>
      obtain ⟨-, heq⟩ := World.done_iff.mp hans
      cases heq
      rfl
  | _ => rw [World.answer_idle hans trivial]

/-- A row is loaded as it is. -/
theorem load_account {id : Uuid} {x : { u : UserResponse // u.id = id }} (h : w.load id = some x) :
    w.HasAccount ⟨id, x.1.username, x.1.email⟩ := by
  unfold World.load at h
  split at h
  · rename_i u hu
    obtain rfl := Option.some.inj h
    obtain ⟨d, hd⟩ := mem_rows_iff.mp (List.mem_of_find?_eq_some hu)
    obtain rfl : u.id = id := by simpa using List.find?_some hu
    exact ⟨d, account_of_user hd⟩
  · cases h

/-- What a change to the rows or the copies has to keep. -/
theorem Accountable.same (h : Accountable w) (hlevel : w'.Level 0 account)
    (hlook : ∀ d, w'.look account d = w.look account d)
    (hcache : ∀ {id : Uuid} {x : { u : UserResponse // u.id = id }}, w'.user_cache id = some x →
      w.user_cache id = some x ∨ w.HasAccount ⟨id, x.1.username, x.1.email⟩) :
    Accountable w' := by
  refine ⟨hlevel, fun {d d' a a'} ha ha' => ?_, fun {id x} hx => ?_⟩
  · rw [hlook] at ha ha'
    exact h.distinct ha ha'
  · rcases hcache hx with hold | ⟨d, hd⟩
    · obtain ⟨d, hd⟩ := h.copies hold
      exact ⟨d, (hlook d).trans hd⟩
    · exact ⟨d, (hlook d).trans hd⟩

/-- Beside the accounts nothing matters but the copies. -/
theorem Accountable.of_db (h : Accountable w) (hdb : w'.db = w.db)
    (hcache : ∀ {id : Uuid} {x : { u : UserResponse // u.id = id }}, w'.user_cache id = some x →
      w.user_cache id = some x) : Accountable w' := by
  have hlook : ∀ d, w'.look account d = w.look account d := by
    intro d
    rw [World.look, World.look, hdb]
  refine h.same (fun d => ?_) hlook fun hx => .inl (hcache hx)
  rw [hlook, hdb]
  exact h.level d

theorem World.HasAccount.of_db {a : Account} (h : w.HasAccount a) (hdb : w'.db = w.db) :
    w'.HasAccount a := by
  obtain ⟨d, hd⟩ := h
  exact ⟨d, by rw [World.look, hdb]; exact hd⟩

/-- A copy the repository hands out agrees with an account, and so do the ones it keeps. -/
theorem Accountable.retrieve {id : Uuid} {r : Op.Reply (.retrieve id)} (h : Accountable w)
    (hans : World.answer c 0 (.retrieve id) ch w = some (w', r)) :
    Accountable w' ∧ ∀ u : UserResponse, r = Except.ok u →
      w'.HasAccount ⟨id, u.username, u.email⟩ := by
  change World.answerRetrieve id ch w = some (w', r) at hans
  unfold World.answerRetrieve at hans
  split at hans
  · obtain ⟨x, hx, heq⟩ := Option.map_eq_some_iff.mp hans
    cases heq
    refine ⟨h, fun u hu => ?_⟩
    cases hu
    exact h.copies hx
  · split at hans
    · rename_i x hx
      cases hans
      refine ⟨h.same h.level (fun _ => rfl) fun {id' y} hy => ?_, fun u hu => ?_⟩
      · by_cases hid : id' = id
        · subst hid
          change Function.update w.user_cache id' (some x) id' = some y at hy
          rw [Function.update_self] at hy
          exact .inr (Option.some.inj hy ▸ load_account hx)
        · change Function.update w.user_cache id (some x) id' = some y at hy
          rw [Function.update_of_ne hid] at hy
          exact .inl hy
      · cases hu
        exact load_account hx
    · cases hans
      exact ⟨h, fun u hu => by cases hu⟩
  · cases hans
    exact ⟨h, fun u hu => by cases hu⟩
  · cases hans

/-- A statement that shows the accounts nothing keeps them. -/
theorem Accountable.apart (h : Accountable w) (ho : ∀ q, o.statement = some q → Apart account q)
    (hu : ∀ id dto, o ≠ .update id dto) (hans : World.answer c 0 o ch w = some (w', r)) :
    Accountable w' ∧ ∀ d, w'.look account d = w.look account d := by
  obtain ⟨hlevel, hlook⟩ := Apart.shown ho hans h.level
  refine ⟨?_, hlook⟩
  by_cases hr : ∃ id, o = .retrieve id
  · obtain ⟨id, rfl⟩ := hr
    exact (h.retrieve hans).1
  · refine h.same hlevel hlook fun hx => .inl ?_
    rwa [user_cache_of_answer (fun id hid => hr ⟨id, hid⟩) hu hans] at hx

/-- An update refreshes the copy of the row it has written. -/
theorem answer_update_copy {me : Nat} {id : Uuid} {dto : UpdateUser} {r : Op.Reply (.update id dto)}
    (hans : World.answer c me (.update id dto) ch w = some (w', r)) :
    w' = w ∨ ∃ u r', (w.rows users).find? (fun v => v.id == id) = some u ∧
      (∀ v ∈ w.rows users, v.id ≠ id → users.clash (u.update dto) v = false) ∧
      SqlOp.answer me (.write .pool (users.sel fun v => v.id == id)
        (users.set fun v => v.update dto)) (.done 0) w.db = some (w'.db, r') ∧
      w' = { w with
        db := w'.db
        user_cache := Function.update w.user_cache (u.update dto).id
          (some ⟨UserResponse.of (u.update dto), rfl⟩) } := by
  cases ch with
  | go =>
      change World.answerUpdate me id dto w = some (w', r) at hans
      unfold World.answerUpdate at hans
      split at hans
      · cases hans
      · rename_i u hu
        dsimp only at hans
        by_cases hclash : ((w.rows users).any fun v => v.id != id && users.clash (u.update dto) v) =
            true
        · rw [if_pos hclash] at hans
          cases hans
        · rw [if_neg hclash] at hans
          split at hans
          · rename_i db r' hdb
            cases hans
            refine .inr ⟨u, r', hu, fun v hv hne => ?_, hdb, rfl⟩
            by_contra hc
            exact hclash (List.any_eq_true.mpr ⟨v, hv, by simp [hne, hc]⟩)
          · cases hans
  | refuse e =>
      cases hans
      exact .inl rfl
  | _ => cases hans

/-- A new account whose names nobody has. -/
theorem Accountable.added (h : Accountable w) (hset : w.Settled 0) (hset' : w'.Settled 0) {u : User}
    (hfree : ∀ v ∈ w.sees 0 users, users.clash u v = false)
    (hplaces : w'.places = w.places ++ [some (.user u)]) (hw : w' = { w with db := w'.db }) :
    Accountable w' := by
  have hlook : ∀ d, w'.look account d =
      if d = w.db.length then some (Account.of u) else w.look account d := look_of_insert hplaces
  have hold : ∀ {d a}, w'.look account d = some a → d = w.db.length ∧ a = Account.of u ∨
      w.look account d = some a ∧ ¬ ((Account.of u).id = a.id ∨
        (Account.of u).username = a.username ∨ (Account.of u).email = a.email) := by
    intro d a ha
    rw [hlook] at ha
    by_cases hd : d = w.db.length
    · rw [if_pos hd] at ha
      exact .inl ⟨hd, (Option.some.inj ha).symm⟩
    · rw [if_neg hd] at ha
      obtain ⟨v, hv, rfl⟩ := user_of_account ha
      refine .inr ⟨ha, fun hor => ?_⟩
      have hclash := hfree v ((mem_sees_rows hset).mpr (mem_rows_iff.mpr ⟨d, hv⟩))
      rw [clash_iff.mpr hor] at hclash
      cases hclash
  refine ⟨hset'.level account, fun {d d' a a'} ha ha' hor => ?_, fun {id x} hx => ?_⟩
  · rcases hold ha with ⟨hd, rfl⟩ | ⟨ha, hne⟩ <;> rcases hold ha' with ⟨hd', rfl⟩ | ⟨ha', hne'⟩
    · rw [hd, hd']
    · exact absurd hor hne'
    · exact absurd (hor.imp Eq.symm (Or.imp Eq.symm Eq.symm)) hne
    · exact h.distinct ha ha' hor
  · rw [hw] at hx
    obtain ⟨d, hd⟩ := h.copies hx
    refine ⟨d, ?_⟩
    rw [hlook, if_neg, hd]
    intro hlen
    rw [World.look, hlen, List.getElem?_eq_none (Nat.le_refl _)] at hd
    cases hd

theorem rewrite_account {id : Uuid} {dto : UpdateUser} (x : Option Record) :
    (Desk.rewrite (users.sel fun v => v.id == id) (users.set fun v => v.update dto) x).bind account =
      (x.bind account).map fun a => if a.id = id then a.update dto else a := by
  have hmap : ∀ y : Option Record, y.bind account = (y.bind users.prj).map Account.of := by
    intro y
    cases y <;> rfl
  rw [hmap, hmap, prj_rewrite_set, Option.map_map, Option.map_map]
  congr 1
  funext u
  by_cases hid : u.id = id
  · simp [hid, Account.of, Account.update, User.update]
  · simp [hid, Account.of]

/-- An update that is not refused renames one account, to a name no other has. -/
theorem Accountable.update {id : Uuid} {dto : UpdateUser} {r : Op.Reply (.update id dto)}
    (h : Accountable w) (hans : World.answer c 0 (.update id dto) ch w = some (w', r)) :
    Accountable w' ∧ (w' = w ∨ ∀ d, w'.look account d =
      (w.look account d).map fun a => if a.id = id then a.update dto else a) := by
  rcases answer_update_copy hans with rfl | ⟨u, r', hfind, hfree, hdb, hw⟩
  · exact ⟨h, .inl rfl⟩
  rcases SqlOp.alone_write hdb with ⟨hdesk, -⟩ | ⟨hf, -⟩
  · have hlook := look_of_pooled h.level rewrite_account rfl hdesk
    have hset : w'.Settled 0 := by
      rw [World.Settled, hdesk]
      exact Desk.settled_pool _
    obtain ⟨d₀, hd₀⟩ := mem_rows_iff.mp (List.mem_of_find?_eq_some hfind)
    obtain rfl : u.id = id := by simpa using List.find?_some hfind
    have hu := account_of_user hd₀
    have hback : ∀ {d a'}, w'.look account d = some a' →
        d = d₀ ∧ a' = (Account.of u).update dto ∨
          w.look account d = some a' ∧ ∃ v ∈ w.rows users, Account.of v = a' ∧ v.id ≠ u.id := by
      intro d a' ha'
      rw [hlook] at ha'
      obtain ⟨a, ha, rfl⟩ := Option.map_eq_some_iff.mp ha'
      by_cases hid : a.id = u.id
      · obtain rfl := h.distinct ha hu (.inl hid)
        obtain rfl := Option.some.inj (ha.symm.trans hu)
        exact .inl ⟨rfl, if_pos rfl⟩
      · rw [if_neg hid]
        obtain ⟨v, hv, rfl⟩ := user_of_account ha
        exact .inr ⟨ha, v, mem_rows_iff.mpr ⟨d, hv⟩, rfl, hid⟩
    have hnew : w'.look account d₀ = some ((Account.of u).update dto) := by
      rw [hlook, hu]
      exact congrArg some (if_pos rfl)
    have hno : ∀ {v a'}, v ∈ w.rows users → Account.of v = a' → v.id ≠ u.id →
        ¬ (((Account.of u).update dto).id = a'.id ∨
          ((Account.of u).update dto).username = a'.username ∨
          ((Account.of u).update dto).email = a'.email) := by
      intro v a' hv hva hne hor
      subst hva
      have hclash := hfree v hv hne
      rw [clash_iff.mpr hor] at hclash
      cases hclash
    refine ⟨⟨hset.level account, fun {d d' a a'} ha ha' hor => ?_, fun {id' x} hx => ?_⟩,
      .inr hlook⟩
    · rcases hback ha with ⟨rfl, rfl⟩ | ⟨ha, v, hv, hva, hne⟩ <;>
        rcases hback ha' with ⟨rfl, rfl⟩ | ⟨ha', v', hv', hva', hne'⟩
      · rfl
      · exact absurd hor (hno hv' hva' hne')
      · exact absurd (hor.imp Eq.symm (Or.imp Eq.symm Eq.symm)) (hno hv hva hne)
      · exact h.distinct ha ha' hor
    · rw [hw] at hx
      by_cases hid : id' = (u.update dto).id
      · subst hid
        change Function.update w.user_cache _ _ (u.update dto).id = some x at hx
        rw [Function.update_self] at hx
        exact ⟨d₀, Option.some.inj hx ▸ hnew⟩
      · change Function.update w.user_cache _ _ id' = some x at hx
        rw [Function.update_of_ne hid] at hx
        obtain ⟨d, hd⟩ := h.copies hx
        refine ⟨d, ?_⟩
        rw [hlook, hd, Option.map_some]
        exact congrArg some (if_neg hid)
  · cases hf

end Accounts

/-! ### What most operations do to all this -/

/-- The account whose address a record says is confirmed. -/
def flagged (r : Record) : Option Uuid :=
  (users.prj r).bind fun u => if u.email_confirmed then some u.id else none

theorem flagged_elsewhere : Elsewhere flagged :=
  ⟨fun _ => rfl, fun _ => rfl, fun _ => rfl, fun _ => rfl⟩

theorem account_elsewhere : Elsewhere account :=
  ⟨fun _ => rfl, fun _ => rfl, fun _ => rfl, fun _ => rfl⟩

/-- The operation starts no session and leaves the challenges and the accounts' columns alone. -/
def Humble : Op → Prop
  | .sql q => ∀ s, ¬ q.Inserts (.session s)
  | .update _ _ | .tokens_insert _ _ | .tokens_remove _ | .links_insert _ _ | .links_remove _ => False
  | _ => True

/-- What requests do beside taking and giving names and starting sessions. -/
structure Modest (o : Op) : Prop where
  kind : Plain o ∨ HashWrite o ∨ TokenInsert o
  humble : Humble o

/-- What happened between `w₀` and `w`: at most one session was started and it is one of `P`, the
addresses confirmed are of `F`, and the accounts' names and the challenges stayed. -/
structure Since (P : Session → Prop) (F : Uuid → Prop) (w₀ w : World) : Prop where
  accountable : Accountable w
  accounts : ∀ d, w.look account d = w₀.look account d
  level : w.Level 0 flagged
  flags : ∀ {d : Nat} {id : Uuid}, w.look flagged d = some id → w₀.look flagged d = some id ∨ F id
  started : ∃ d₀, w₀.db.length ≤ d₀ ∧ ∀ {d : Nat} {s : Session},
    w.Reads (.live Record 0) d (.session s) →
      w₀.Reads (.live Record 0) d (.session s) ∨ d = d₀ ∧ P s
  length : w₀.db.length ≤ w.db.length
  tokens : w.tokens = w₀.tokens
  links : w.links = w₀.links

section Since

variable {c : Crates} {admits : World → Op → Choice → Prop} {P : Session → Prop} {F : Uuid → Prop}
  {w₀ w w' : World} {o : Op} {ch : Choice} {r : o.Reply}

theorem HashWrite.apart {β : Type} {g : Record → Option β} (h : HashWrite o)
    (hg : ∀ u hash now, g (.user (u.with_hash hash)) = g (.user u) ∧
      g (.user (u.with_hash_at hash now)) = g (.user u)) {q : SqlOp Record}
    (hq : o.statement = some q) : Apart g q := by
  rcases h with ⟨id, hash⟩ | ⟨id, hash, now⟩ <;> cases hq
  · exact apart_set_of fun u => (hg u hash 0).1
  · exact apart_set_of fun u => (hg u hash now).2

theorem Modest.apart {β : Type} {g : Record → Option β} (h : Modest o) (hT : Elsewhere g)
    (hg : ∀ u hash now, g (.user (u.with_hash hash)) = g (.user u) ∧
      g (.user (u.with_hash_at hash now)) = g (.user u)) {q : SqlOp Record}
    (hq : o.statement = some q) : Apart g q := by
  rcases h.kind with hplain | hhash | ⟨ex, t, rfl⟩
  · exact hplain.apart hT hq
  · exact hhash.apart hg hq
  · cases hq
    exact apart_insert (U := refresh_tokens) hT.refresh_tokens

theorem Modest.tame (h : Modest o) {q : SqlOp Record} (hq : o.statement = some q) : Tame q := by
  rcases h.kind with hplain | hhash | htoken
  · exact (hplain.harmless q hq).1
  · exact (hhash.harmless q hq).1
  · exact htoken.tame hq

/-- The challenges stay where no operation reaches them. -/
theorem Humble.challenges (h : Humble o) (hans : World.answer c 0 o ch w = some (w', r)) :
    w'.tokens = w.tokens ∧ w'.links = w.links := by
  cases o with
  | sql q =>
      obtain ⟨-, -, -, hw⟩ := World.answer_sql hans
      rw [hw]
      exact ⟨rfl, rfl⟩
  | retrieve id =>
      rw [(World.answer_retrieve hans).1]
      exact ⟨rfl, rfl⟩
  | reg_set k s | reg_delete k | auth_set k s | auth_delete k =>
      rcases World.doneOr_iff.mp hans with ⟨-, heq⟩ | ⟨-, heq⟩ <;> cases heq <;> exact ⟨rfl, rfl⟩
  | update | tokens_insert | tokens_remove | links_insert | links_remove => exact h.elim
  | _ =>
      rw [World.answer_idle hans trivial]
      exact ⟨rfl, rfl⟩

theorem Since.refl (h : Accountable w) (hset : w.Settled 0) : Since P F w w :=
  ⟨h, fun _ => rfl, hset.level flagged, .inl, ⟨_, Nat.le_refl _, .inl⟩, Nat.le_refl _, rfl, rfl⟩

theorem Since.step (h : Since P F w₀ w) (ho : Modest o)
    (hans : World.answer c 0 o ch w = some (w', r)) : Since P F w₀ w' := by
  have hnames : ∀ q, o.statement = some q → Apart account q := fun _ hq =>
    ho.apart account_elsewhere (fun _ _ _ => ⟨rfl, rfl⟩) hq
  have hflags : ∀ q, o.statement = some q → Apart flagged q := fun _ hq =>
    ho.apart flagged_elsewhere (fun _ _ _ => ⟨rfl, rfl⟩) hq
  have hupdate : ∀ id dto, o ≠ .update id dto := by
    intro id dto ho'
    have hhumble := ho.humble
    rw [ho'] at hhumble
    exact hhumble
  obtain ⟨haccountable, haccounts⟩ := h.accountable.apart hnames hupdate hans
  obtain ⟨hlevel, hlook⟩ := Apart.shown hflags hans h.level
  obtain ⟨htokens, hlinks⟩ := ho.humble.challenges hans
  obtain ⟨d₀, hd₀, hsessions⟩ := h.started
  refine ⟨haccountable, fun d => (haccounts d).trans (h.accounts d), hlevel,
    fun hd => h.flags ((hlook _).symm.trans hd), ⟨d₀, hd₀, fun {d s} hd => ?_⟩,
    Nat.le_trans h.length (length_of_answer hans), htokens.trans h.tokens, hlinks.trans h.links⟩
  rcases reads_of_answer hans hd with hold | ⟨q, old, hq, -, hm⟩ | ⟨-, q, hq, hi⟩
  · exact hsessions hold
  · exact absurd hm (ho.tame hq).sessions
  · cases o with
    | sql q' =>
        cases hq
        exact absurd hi (ho.humble s)
    | update => exact ho.humble.elim
    | _ => cases hq

theorem Since.keeps {α : Type} {p : Handler α} (hp : p.Uses Modest) :
    Keeps c 0 admits (Since P F w₀) p :=
  keeps_of_uses hp fun _ _ _ _ _ ho _ hans h => h.step ho hans

theorem Since.mono {P' : Session → Prop} {F' : Uuid → Prop} (h : Since P F w₀ w)
    (hP : ∀ s, P s → P' s) (hF : ∀ id, F id → F' id) : Since P' F' w₀ w := by
  obtain ⟨d₀, hd₀, hstarted⟩ := h.started
  exact ⟨h.accountable, h.accounts, h.level, fun hd => (h.flags hd).imp_right (hF _),
    ⟨d₀, hd₀, fun hd => (hstarted hd).imp_right fun ⟨heq, hs⟩ => ⟨heq, hP _ hs⟩⟩, h.length,
    h.tokens, h.links⟩

/-- A session put into a row of its own. -/
theorem Since.issued (h : Since (fun _ => False) F w₀ w) (hset' : w'.Settled 0) {s : Session} (hs : P s)
    (hplaces : w'.places = w.places ++ [some (.session s)]) (hw : w' = { w with db := w'.db }) :
    Since P F w₀ w' := by
  have haccounts : ∀ d, w'.look account d = w.look account d := look_of_insert_hidden hplaces rfl
  have hflags : ∀ d, w'.look flagged d = w.look flagged d := look_of_insert_hidden hplaces rfl
  obtain ⟨d₀, -, hsessions⟩ := h.started
  have hlen : w'.db.length = w.db.length + 1 := by
    have hlen := congrArg List.length hplaces
    rwa [places_length, List.length_append, places_length] at hlen
  refine ⟨?_, fun d => (haccounts d).trans (h.accounts d), hset'.level flagged,
    fun hd => h.flags ((hflags _).symm.trans hd), ⟨w.db.length, h.length, fun {d x} hd => ?_⟩,
    ?_, ?_, ?_⟩
  · refine h.accountable.same (hset'.level account) haccounts fun hx => .inl ?_
    rwa [hw] at hx
  · have hrow : w'.row sessions d = some x := row_iff_places.mpr (places_of_reads hset' hd)
    rw [row_of_insert hplaces] at hrow
    by_cases hd : d = w.db.length
    · rw [if_pos hd] at hrow
      exact .inr ⟨hd, Option.some.inj hrow ▸ hs⟩
    · rw [if_neg hd] at hrow
      exact .inl ((hsessions (reads_of_places (row_iff_places.mp hrow))).resolve_right And.right)
  · rw [hlen]
    exact Nat.le_succ_of_le h.length
  · rw [hw]
    exact h.tokens
  · rw [hw]
    exact h.links

end Since

/-! ### Walking for humble operations -/

section Humble

variable {c : Crates} {α β ε : Type} {P P' : Op → Prop}

theorem uses_and {p : Handler α} (h : p.Uses P) (h' : p.Uses P') : p.Uses fun o => P o ∧ P' o := by
  induction p with
  | ret a => trivial
  | ask o k ih => exact ⟨⟨h.1, h'.1⟩, fun r => ih r (h.2 r) (h'.2 r)⟩

theorem uses_ite {b : Prop} [Decidable b] {p q : Service ε α} (hp : b → p.run.Uses P)
    (hq : ¬ b → q.run.Uses P) : (if b then p else q).run.Uses P := by
  by_cases hb : b
  · rw [if_pos hb]
    exact hp hb
  · rw [if_neg hb]
    exact hq hb

/-- What keeps to the route's operations and is humble besides is modest. -/
theorem modest_of {p : Handler α} (hp : p.Uses fun o => Plain o ∨ HashWrite o ∨ TokenInsert o)
    (hh : p.Uses Humble) : p.Uses Modest :=
  uses_mono (uses_and hp hh) fun _ ⟨hkind, hhumble⟩ => ⟨hkind, hhumble⟩

theorem humble_select {p : Record → Bool} : Humble (.sql (.select p)) := fun _ hi => hi

theorem humble_write {ex : Executor} {p : Record → Bool} {f : Record → Option Record} :
    Humble (.sql (.write ex p f)) := fun _ hi => hi

theorem humble_rollback : Humble (.sql .rollback) := fun _ hi => hi

theorem begin_humble : begin_tx.Uses Humble := ⟨fun _ hi => hi, fun _ => trivial⟩

theorem commit_humble : commit_tx.Uses Humble := ⟨fun _ hi => hi, fun _ => trivial⟩

theorem humble_insert {T : Relation β} {ex : Executor} {mk : Uuid → β}
    (hs : ∀ s, T.prj (.session s) = none) :
    Humble (.sql (.insert ex (fun n => T.inj (mk n)) T.clashes)) := by
  intro s hpost
  obtain ⟨key, hkey⟩ := hpost
  have hprj := T.prj_inj (mk key)
  rw [show T.inj (mk key) = .session s from hkey.symm, hs] at hprj
  cases hprj

theorem generate_raw_token_humble : generate_raw_token.Uses Humble :=
  Prog.uses_bind (uses_ask trivial) fun _ => trivial

theorem change_password_humble (cmd : ChangePasswordCmd) :
    (UserService.change_password c cmd).run.Uses Humble := by
  refine uses_ite (fun _ => trivial) fun _ => ?_
  refine Prog.uses_bindE (Prog.uses_bindE (uses_attempt (uses_select humble_select)) fun rows => ?_)
    fun hash => ?_
  · cases rows <;> trivial
  refine uses_ite (fun _ => trivial) fun _ => ?_
  exact Prog.uses_bindE (uses_attempt (uses_ask trivial)) fun _ =>
    Prog.uses_bindE (uses_attempt (uses_update humble_write)) fun _ => trivial

theorem request_password_reset_humble (cmd : RequestPasswordResetCmd) :
    (UserService.request_password_reset c cmd).run.Uses Humble := by
  refine Prog.uses_bindE (uses_attempt (uses_select humble_select)) fun rows => ?_
  cases rows with
  | nil => trivial
  | cons u us =>
      refine Prog.uses_bindE (uses_lift generate_raw_token_humble) fun raw =>
        Prog.uses_bindE (uses_lift (uses_ask trivial)) fun now =>
        Prog.uses_bindE (uses_attempt begin_humble) fun _ =>
        uses_in_tx ?_ humble_rollback
      exact Prog.uses_bindE (uses_attempt (uses_insert (humble_insert fun _ => rfl))) fun _ =>
        Prog.uses_bindE (uses_attempt (uses_insert (humble_insert fun _ => rfl))) fun _ =>
        uses_attempt commit_humble

theorem confirm_password_reset_humble (cmd : ConfirmPasswordResetCmd) :
    (UserService.confirm_password_reset c cmd).run.Uses Humble := by
  refine uses_ite (fun _ => trivial) fun _ => ?_
  refine Prog.uses_bindE (uses_lift (uses_ask trivial)) fun now =>
    Prog.uses_bindE (uses_attempt begin_humble) fun _ => uses_in_tx ?_ humble_rollback
  refine Prog.uses_bindE (uses_attempt (uses_update humble_write)) fun rows => ?_
  cases rows with
  | nil => trivial
  | cons reset rest =>
      exact Prog.uses_bindE (uses_attempt (uses_ask trivial)) fun _ =>
        Prog.uses_bindE (uses_attempt (uses_update humble_write)) fun _ =>
        Prog.uses_bindE (uses_attempt commit_humble) fun _ => trivial

theorem session_delete_humble (id : Uuid) : (SessionRepo.delete id).run.Uses Humble :=
  Prog.uses_bindE (uses_attempt (uses_delete humble_write)) fun rows => by cases rows <;> trivial

theorem delete_each_humble (l : List Session) : (SessionService.delete_each l).Uses Humble := by
  induction l with
  | nil => trivial
  | cons s rest ih => exact Prog.uses_bind (session_delete_humble s.id) fun _ => ih

theorem revoke_all_for_user_humble (sub : Uuid) :
    (SessionService.revoke_all_for_user sub).run.Uses Humble :=
  Prog.uses_bindE (uses_attempt (uses_ask trivial)) fun l => uses_lift (delete_each_humble l)

theorem revoke_all_user_tokens_humble (user_id : Uuid) :
    (JwtService.revoke_all_user_tokens user_id).run.Uses Humble :=
  Prog.uses_bindE (uses_attempt (uses_update humble_write)) fun _ => trivial

theorem issue_token_pair_with_humble (jwt_svc : JwtService) (ex : Executor) (user_id : Uuid)
    (issuer : String) : (jwt_svc.issue_token_pair_with ex user_id issuer).run.Uses Humble :=
  Prog.uses_bindE (uses_attempt (uses_ask trivial)) fun _ =>
    Prog.uses_bindE (uses_lift generate_raw_token_humble) fun _ =>
    Prog.uses_bindE (uses_lift (uses_ask trivial)) fun _ =>
    Prog.uses_bindE (uses_lift (uses_ask trivial)) fun _ =>
    Prog.uses_bindE (uses_attempt (uses_insert (humble_insert fun _ => rfl))) fun _ => trivial

theorem get_refresh_token_by_hash_humble (hash : String) :
    (JwtService.get_refresh_token_by_hash hash).run.Uses Humble := by
  refine Prog.uses_bindE (uses_attempt (uses_select humble_select)) fun rows => ?_
  cases rows with
  | nil => trivial
  | cons r rest =>
      dsimp only
      split <;> trivial

theorem refresh_humble {jwt_svc : JwtService} {cmd : RefreshCmd}
    {p : Handler (Except JwtError JwtResult)} (hp : (jwt_svc.refresh cmd).run = p) :
    p.Uses Humble := by
  subst hp
  unfold JwtService.refresh
  generalize trim cmd.refresh_token = raw
  refine uses_ite (fun _ => trivial) fun _ => ?_
  refine Prog.uses_bindE (uses_attempt begin_humble) fun _ => uses_in_tx ?_ humble_rollback
  refine Prog.uses_bindE (get_refresh_token_by_hash_humble _) fun row => ?_
  refine uses_ite (fun _ => trivial) fun _ => ?_
  refine Prog.uses_bindE (uses_lift (uses_ask trivial)) fun now => ?_
  refine uses_ite (fun _ => trivial) fun _ => ?_
  exact Prog.uses_bindE (uses_attempt (uses_ask trivial)) fun user =>
    Prog.uses_bindE (Prog.uses_bindE (uses_attempt (uses_delete humble_write)) fun _ => trivial)
      fun _ => Prog.uses_bindE (issue_token_pair_with_humble _ _ _ _) fun _ =>
    Prog.uses_bindE (uses_attempt commit_humble) fun _ => trivial

theorem jwt_logout_humble {jwt_svc : JwtService} {cmd : LogoutCmd}
    {p : Handler (Except JwtError Unit)} (hp : (jwt_svc.logout cmd).run = p) : p.Uses Humble := by
  subst hp
  unfold JwtService.logout
  generalize trim cmd.refresh_token = raw
  refine uses_ite (fun _ => trivial) fun _ => ?_
  refine Prog.uses_bind (Prog.uses_bindE (uses_attempt (uses_update humble_write)) fun rows => ?_)
    fun r => ?_
  · exact uses_ite (fun _ => trivial) fun _ => trivial
  · rcases r with e | _
    · cases e <;> trivial
    · trivial

theorem session_logout_humble (session_id : String) :
    (SessionService.logout c session_id).run.Uses Humble := by
  unfold SessionService.logout
  cases c.uuid_parse session_id with
  | none => trivial
  | some id =>
      refine Prog.uses_bind (session_delete_humble id) fun r => ?_
      rcases r with e | _
      · cases e <;> trivial
      · trivial

theorem delete_session_humble (id : Uuid) (sess : Identity) :
    (handlers.delete_session id sess).Uses Humble := by
  refine Prog.uses_bind (p := (SessionRepo.retrieve id).run) (uses_ask trivial) fun r => ?_
  rcases r with e | session
  · cases e <;> trivial
  · dsimp only
    by_cases hs : session.sub ≠ sess.sub
    · rw [if_pos hs]
      trivial
    · rw [if_neg hs]
      refine Prog.uses_bind (session_delete_humble id) fun r => ?_
      rcases r with e | _
      · cases e <;> trivial
      · trivial

theorem session_middleware_humble {cookie : String} {handler : Identity → Handler HttpResponse}
    (h : ∀ id, (handler id).Uses Humble) : (session_middleware cookie handler).Uses Humble := by
  refine Prog.uses_bind (uses_ask trivial) fun session => ?_
  change Option Identity at session
  cases session with
  | none => trivial
  | some id => exact h id

theorem publish_challenge_humble (payload : ChallengeRequested) :
    (PasswdlessService.publish_challenge payload).run.Uses Humble :=
  Prog.uses_bindE (uses_attempt begin_humble) fun _ => uses_in_tx
    (Prog.uses_bindE (uses_attempt (uses_insert (humble_insert fun _ => rfl))) fun _ =>
      uses_attempt commit_humble) humble_rollback

end Humble

/-! ### Starting a session -/

section Starting

variable {c : Crates} {admits : World → Op → Choice → Prop} {P : Session → Prop} {F : Uuid → Prop}
  {w₀ w : World}

/-- The one session a request starts. -/
theorem issue_session_since (h : Since (fun _ => False) F w₀ w) (hset : w.Settled 0)
    (user : SessionUser) (params : SessionParams)
    (hP : ∀ s : Session, s.sub = user.sub → s.username = user.username → s.email = user.email →
      P s) :
    Ends c 0 admits (SessionService.issue_session user params).run w fun w' _ =>
      Since P F w₀ w' ∧ w'.Settled 0 := by
  refine ends_mono (issue_session_adds hset user params) ?_
  intro w' r hr
  cases r with
  | error e =>
      change w' = w at hr
      subst hr
      exact ⟨h.mono (fun _ hs => hs.elim) fun _ hid => hid, hset⟩
  | ok id =>
      obtain ⟨s, -, ⟨hsub, hname, hemail⟩, -, hplaces, hset', hw⟩ := hr
      exact ⟨h.issued hset' (hP s hsub hname hemail) hplaces hw, hset'⟩

/-- A copy of an account is put into a session. -/
theorem copy_since (h : Since (fun _ => False) F w₀ w) (hset : w.Settled 0) (user : UserResponse)
    (params : SessionParams) (hacc : w₀.HasAccount ⟨user.id, user.username, user.email⟩)
    (hP : ∀ s : Session, s.sub = user.id → w₀.HasAccount ⟨s.sub, s.username, s.email⟩ → P s)
    {α : Type} {g : Except AuthError Uuid → Handler α}
    (hg : ∀ w' r, Since P F w₀ w' → w'.Settled 0 →
      Ends c 0 admits (g r) w' fun w'' _ => Since P F w₀ w'' ∧ w''.Settled 0) :
    Ends c 0 admits (do
        let user ← SessionUser.new user
        g (← (SessionService.issue_session user params).run)) w
      fun w' _ => Since P F w₀ w' ∧ w'.Settled 0 := by
  refine ends_bind (ends_bind (ends_now fun now => ends_ret ?_))
  have hcopy : ∀ s : Session, s.sub = user.id → s.username = user.username →
      s.email = user.email → P s := by
    intro s hsub hname hemail
    refine hP s hsub ?_
    rw [hsub, hname, hemail]
    exact hacc
  refine ends_bind (ends_mono (issue_session_since h hset _ params hcopy) ?_)
  exact fun w' r hw' => hg w' r hw'.1 hw'.2

/-- The repository's answer, and what it says of the account. -/
theorem get_user_by_id_since (h : Since P F w₀ w) (id : Uuid) :
    EndsE c 0 admits (UserService.get_user_by_id id) w
      (fun w' u => Since P F w₀ w' ∧ w'.db = w.db ∧ u.id = id ∧
        w₀.HasAccount ⟨u.id, u.username, u.email⟩)
      (fun w' _ => Since P F w₀ w' ∧ w'.db = w.db) := by
  refine endsE_attempt (ends_ask fun ch w' r _ hans => ?_)
  have hplain : Plain (.retrieve id) := .quiet trivial fun hc => hc
  have hsince : Since P F w₀ w' := h.step ⟨.inl hplain, trivial⟩ hans
  have hdb : w'.db = w.db := World.answer_quiet (show World.Quiet (.retrieve id) from trivial) hans
  cases r with
  | error e => exact ⟨hsince, hdb⟩
  | ok u =>
      have hid : u.id = id := (World.answer_retrieve hans).2 u rfl
      obtain ⟨d, hd⟩ := (h.accountable.retrieve hans).2 u rfl
      exact ⟨hsince, hdb, hid, d, by rw [← hsince.accounts d, hid]; exact hd⟩

/-- Setting the flag of an account that may be confirmed. -/
theorem confirm_email_since (h : Since P F w₀ w) (hset : w.Settled 0) {id : Uuid} (hF : F id) :
    Ends c 0 admits (ask (.update id ⟨none, some true⟩)) w fun w' _ =>
      Since P F w₀ w' ∧ w'.Settled 0 := by
  refine ends_ask fun ch w' r _ hans => ?_
  have hset' : w'.Settled 0 := by
    refine Op.Pooled.settled (fun q hq => ?_) hans hset
    cases hq
    trivial
  refine ⟨?_, hset'⟩
  obtain ⟨haccountable, hsame⟩ := h.accountable.update hans
  have haccounts : ∀ d, w'.look account d = w.look account d := by
    rcases hsame with rfl | hlook
    · exact fun _ => rfl
    · intro d
      rw [hlook]
      cases w.look account d with
      | none => rfl
      | some a =>
          change some (if a.id = id then a else a) = some a
          rw [ite_self]
  have hflags : ∀ {d i}, w'.look flagged d = some i → w.look flagged d = some i ∨ i = id := by
    intro d i hd
    have hlook : ∀ w : World, w.look flagged d = (w.row users d).bind fun u =>
        if u.email_confirmed then some u.id else none := by
      intro w
      unfold World.look World.row flagged
      cases w.db[d]?.bind Slot.current <;> rfl
    rw [hlook] at hd ⊢
    rcases (update_accounts hans (hset.steady users)).2 with hrows | ⟨d₀, u, -, -, -, hrows⟩
    · rw [hrows] at hd
      exact .inl hd
    · rw [hrows] at hd
      obtain ⟨v', hv', hflag⟩ := Option.bind_eq_some_iff.mp hd
      obtain ⟨v, hv, rfl⟩ := Option.map_eq_some_iff.mp hv'
      by_cases hid : (v.id == id) = true
      · rw [if_pos hid] at hflag
        change some v.id = some i at hflag
        exact .inr ((Option.some.inj hflag).symm.trans (by simpa using hid))
      · rw [if_neg hid] at hflag
        exact .inl (by rw [hv]; exact hflag)
  obtain ⟨d₀, hd₀, hstarted⟩ := h.started
  refine ⟨haccountable, fun d => (haccounts d).trans (h.accounts d), hset'.level flagged,
    fun {d i} hd => ?_, ⟨d₀, hd₀, fun {d s} hd => ?_⟩,
    Nat.le_trans h.length (length_of_answer hans), ?_, ?_⟩
  · rcases hflags hd with hold | rfl
    · exact h.flags hold
    · exact .inr hF
  · rcases reads_of_answer hans hd with hold | ⟨q, old, hq, -, hm⟩ | ⟨-, q, hq, hi⟩
    · exact hstarted hold
    · exact absurd hm ((harmless_update id _ q hq).1).sessions
    · cases hq
      exact hi.elim
  · rcases World.answer_update hans with ⟨rfl, -⟩ | ⟨_, _, -, -, -, hw⟩
    · exact h.tokens
    · rw [hw]
      exact h.tokens
  · rcases World.answer_update hans with ⟨rfl, -⟩ | ⟨_, _, -, -, -, hw⟩
    · exact h.links
    · rw [hw]
      exact h.links

end Starting

end Authnz
