/-
Which passwords a login accepts.

Requests run one after the other.  `History` keeps, beside the state, the password
each account was last given in plain text; every run of requests has one.  In every
state reached a login accepts exactly the texts with the bcrypt key of the password
last set.  The key is the text and a NUL, repeated and cut to 72 bytes: it tells texts
of up to 71 bytes without a NUL apart, but every password shares its key with some
other text.
-/
import Authnz.Model.Sample
import Authnz.Proofs.Accounts

namespace Authnz

open Basis

/-- `bcrypt::verify` compares what it sees of the two passwords. -/
def BcryptExact (c : Crates) : Prop := ∀ p q salt,
  c.bcrypt_verify p (c.bcrypt_hash q salt) = some (decide (bcrypt_key p = bcrypt_key q))

/-! ### What bcrypt tells apart -/

/-- The byte of the key at this place: the text and a NUL, over and over. -/
def key_byte (p : String) (i : Nat) : UInt8 :=
  (utf8 p ++ [0]).getD (i % (p.utf8ByteSize + 1)) 0

theorem bcrypt_key_eq (p : String) : bcrypt_key p = (List.range 72).map (key_byte p) := by
  have hlen : (utf8 p ++ [0]).length = p.utf8ByteSize + 1 := by
    rw [List.length_append, utf8_length, List.length_singleton]
  unfold bcrypt_key
  simp only [hlen]
  rfl

theorem bcrypt_key_eq_iff {p q : String} :
    bcrypt_key p = bcrypt_key q ↔ ∀ i < 72, key_byte p i = key_byte q i := by
  rw [bcrypt_key_eq, bcrypt_key_eq, List.map_inj_left]
  simp only [List.mem_range]

/-- Within the text the key has its bytes. -/
theorem key_byte_text {p : String} {i : Nat} (h : i < p.utf8ByteSize) :
    (utf8 p)[i]? = some (key_byte p i) := by
  have hi : i < (utf8 p).length := h
  rw [key_byte, Nat.mod_eq_of_lt (by omega), List.getD_eq_getElem?_getD,
    List.getElem?_append_left hi, List.getElem?_eq_getElem hi, Option.getD_some]

/-- The key's NUL stands behind the text. -/
theorem key_byte_nul (p : String) : key_byte p p.utf8ByteSize = 0 := by
  rw [key_byte, Nat.mod_eq_of_lt (by omega), List.getD_eq_getElem?_getD,
    List.getElem?_append_right (Nat.le_of_eq (utf8_length p)), utf8_length, Nat.sub_self]
  rfl

/-- In a text without a NUL it stands nowhere else. -/
theorem le_of_key_byte_nul {p : String} (hp : (0 : UInt8) ∉ utf8 p) {i : Nat}
    (h : key_byte p i = 0) : p.utf8ByteSize ≤ i := by
  by_contra hlt
  exact hp (h ▸ List.mem_of_getElem? (key_byte_text (by omega)))

/-- **Without NULs, up to 71 bytes are told apart.** -/
theorem eq_of_bcrypt_key {p q : String} (hp : (0 : UInt8) ∉ utf8 p) (hq : (0 : UInt8) ∉ utf8 q)
    (hsize : q.utf8ByteSize ≤ 71) (h : bcrypt_key p = bcrypt_key q) : p = q := by
  rw [bcrypt_key_eq_iff] at h
  have hpq : p.utf8ByteSize ≤ q.utf8ByteSize :=
    le_of_key_byte_nul hp ((h _ (by omega)).trans (key_byte_nul q))
  have hqp : q.utf8ByteSize ≤ p.utf8ByteSize :=
    le_of_key_byte_nul hq ((h _ (by omega)).symm.trans (key_byte_nul p))
  refine utf8_injective (List.ext_getElem? fun i => ?_)
  by_cases hi : i < p.utf8ByteSize
  · rw [key_byte_text hi, key_byte_text (by omega), h i (by omega)]
  · rw [List.getElem?_eq_none (by rw [utf8_length]; omega),
      List.getElem?_eq_none (by rw [utf8_length]; omega)]

/-- What follows the first 72 bytes is not looked at. -/
theorem bcrypt_key_cut {q : String} (hsize : 72 ≤ q.utf8ByteSize) (rest : String) :
    bcrypt_key (q ++ rest) = bcrypt_key q := by
  refine bcrypt_key_eq_iff.mpr fun i hi => ?_
  have happ : utf8 (q ++ rest) = utf8 q ++ utf8 rest := utf8_append q rest
  have hlen : (q ++ rest).utf8ByteSize = q.utf8ByteSize + rest.utf8ByteSize := by
    rw [← utf8_length, happ, List.length_append, utf8_length, utf8_length]
  have hbyte : (utf8 (q ++ rest))[i]? = some (key_byte (q ++ rest) i) := key_byte_text (by omega)
  rw [happ, List.getElem?_append_left (by rw [utf8_length]; omega),
    key_byte_text (by omega)] at hbyte
  exact (Option.some.inj hbyte).symm

/-- The text, a NUL and the text again. -/
def twice (q : String) : String := q.push (Char.ofNat 0) ++ q

/-- The key goes over the text again and again, so it does not show how often it is there. -/
theorem bcrypt_key_twice (q : String) : bcrypt_key (twice q) = bcrypt_key q := by
  have happ : utf8 (twice q) ++ [0] = (utf8 q ++ [0]) ++ (utf8 q ++ [0]) := by
    rw [twice, utf8_append, utf8_push_nul, List.append_assoc]
  have hone : (utf8 q ++ [0]).length = q.utf8ByteSize + 1 := by
    rw [List.length_append, utf8_length, List.length_singleton]
  have htwo : (twice q).utf8ByteSize + 1 = 2 * (q.utf8ByteSize + 1) := by
    have hlen := congrArg List.length happ
    rw [List.length_append, List.length_append, hone, utf8_length, List.length_singleton] at hlen
    omega
  refine bcrypt_key_eq_iff.mpr fun i _ => ?_
  rw [key_byte, key_byte, happ, htwo, List.getD_eq_getElem?_getD, List.getD_eq_getElem?_getD]
  have hlt : i % (2 * (q.utf8ByteSize + 1)) < 2 * (q.utf8ByteSize + 1) := Nat.mod_lt _ (by omega)
  have hmod : i % (2 * (q.utf8ByteSize + 1)) % (q.utf8ByteSize + 1) = i % (q.utf8ByteSize + 1) :=
    Nat.mod_mod_of_dvd i ⟨2, Nat.mul_comm ..⟩
  rw [← hmod]
  generalize i % (2 * (q.utf8ByteSize + 1)) = j at hlt
  by_cases hj : j < q.utf8ByteSize + 1
  · rw [Nat.mod_eq_of_lt hj, List.getElem?_append_left (by rw [hone]; exact hj)]
  · rw [Nat.mod_eq_sub_mod (by omega), Nat.mod_eq_of_lt (by omega),
      List.getElem?_append_right (by rw [hone]; omega), hone]

/-- No password is told from every other text. -/
theorem bcrypt_key_shared (q : String) : ∃ p, p ≠ "" ∧ p ≠ q ∧ bcrypt_key p = bcrypt_key q := by
  have hlen : (twice q).length = 2 * q.length + 1 := by
    rw [twice, String.length_append, String.length_push]
    omega
  refine ⟨twice q, fun he => ?_, fun he => ?_, bcrypt_key_twice q⟩
  · rw [he] at hlen
    have hzero : "".length = 0 := rfl
    omega
  · rw [he] at hlen
    omega

/-! ### What a login does -/

section Login

variable {c : Crates} {w w' : World}

/-- Nothing fails. -/
def NoFail (_ : World) (_ : Op) (ch : Choice) : Prop := ch ≠ .fail

theorem exec_select {α ε : Type} {T : Relation α} {q : α → Bool} {err : DbError → ε}
    {r : Except ε (List α)} :
    Prog.Exec (World.answer c) 0 NoFail (attempt err (select_from T q)).run w r w' ↔
      w' = w ∧ r = .ok ((w.sees 0 T).filter q) := by
  constructor
  · intro h
    have hends : EndsE c 0 NoFail (attempt err (select_from T q)) w
        (fun w' l => w' = w ∧ l = (w.sees 0 T).filter q) (fun _ _ => False) :=
      endsE_select ⟨rfl, rfl⟩ fun _ hfail => hfail rfl
    have hr := hends r w' h
    cases r with
    | error e => exact hr.elim
    | ok l => exact ⟨hr.1, by rw [hr.2]⟩
  · rintro ⟨rfl, rfl⟩
    refine Prog.exec_ask.mpr ⟨.go, w', _, by rintro ⟨⟩, rfl, ?_⟩
    rw [← sees_filter, ← Table.desk_rows]
    exact .ret _ _

theorem exec_lookup {q : User → Bool} {r : Except AuthError User} :
    Prog.Exec (World.answer c) 0 NoFail (lookup q).run w r w' ↔
      w' = w ∧ r = match (w.sees 0 users).filter q with
        | u :: _ => .ok u
        | [] => .error .InvalidCredentials := by
  unfold lookup
  rw [Prog.exec_bindE]
  constructor
  · rintro (⟨rows, w₁, hsel, hrest⟩ | ⟨e, hsel, -⟩)
    · obtain ⟨rfl, heq⟩ := exec_select.mp hsel
      cases heq
      revert hrest
      cases (w₁.sees 0 users).filter q <;> exact fun hrest => (Prog.exec_ret.mp hrest).symm
    · exact nomatch (exec_select.mp hsel).2
  · rintro ⟨rfl, rfl⟩
    refine .inl ⟨_, w', exec_select.mpr ⟨rfl, rfl⟩, ?_⟩
    cases (w'.sees 0 users).filter q <;> exact .ret _ _

/-- The check both password logins make, for their own way of finding the account. -/
def credentials (c : Crates) (q : String → User → Bool) (cmd : PasswordLoginCmd) :
    Service AuthError User := do
  if cmd.username.isEmpty || cmd.password.isEmpty then
    throw .MissingCredentials
  let user ← lookup (q cmd.username)
  match c.bcrypt_verify cmd.password user.password_hash with
  | some true => return user
  | some false => throw .InvalidCredentials
  | none => throw .Bcrypt

theorem password_login_eq : UserService.password_login c =
    credentials c fun email u => u.email == email := rfl

theorem username_login_eq : UserService.username_login c =
    credentials c fun username u => u.username == username := rfl

theorem exec_credentials {q : String → User → Bool} {cmd : PasswordLoginCmd} {v : User} :
    Prog.Exec (World.answer c) 0 NoFail (credentials c q cmd).run w (.ok v) w' ↔
      w' = w ∧ cmd.username ≠ "" ∧ cmd.password ≠ "" ∧
        ((w.sees 0 users).filter (q cmd.username)).head? = some v ∧
        c.bcrypt_verify cmd.password v.password_hash = some true := by
  unfold credentials
  by_cases he : (cmd.username.isEmpty || cmd.password.isEmpty) = true
  · rw [if_pos he]
    refine iff_of_false (fun h => nomatch (Prog.exec_ret.mp h).1) ?_
    rintro ⟨-, hu, hp, -⟩
    simp [hu, hp] at he
  rw [if_neg he]
  have hne : cmd.username ≠ "" ∧ cmd.password ≠ "" := by simpa using he
  rw [Prog.exec_bindE]
  constructor
  · rintro (⟨user, w₁, hfind, hrest⟩ | ⟨e, -, heq⟩)
    · obtain ⟨rfl, hr⟩ := exec_lookup.mp hfind
      cases hv : c.bcrypt_verify cmd.password user.password_hash with
      | none =>
          rw [hv] at hrest
          exact nomatch (Prog.exec_ret.mp hrest).1
      | some b =>
          rw [hv] at hrest
          cases b with
          | false => exact nomatch (Prog.exec_ret.mp hrest).1
          | true =>
              obtain ⟨heq, rfl⟩ := Prog.exec_ret.mp hrest
              cases heq
              refine ⟨rfl, hne.1, hne.2, ?_, hv⟩
              revert hr
              cases (w'.sees 0 users).filter (q cmd.username) with
              | nil => exact fun hr => nomatch hr
              | cons u us =>
                  intro hr
                  cases hr
                  rfl
    · cases heq
  · rintro ⟨rfl, -, -, hhead, hv⟩
    refine .inl ⟨v, w', exec_lookup.mpr ⟨rfl, ?_⟩, ?_⟩
    · revert hhead
      cases (w'.sees 0 users).filter (q cmd.username) with
      | nil => exact fun hhead => nomatch hhead
      | cons u us =>
          intro hhead
          cases hhead
          rfl
    · rw [hv]
      exact .ret _ _

end Login

/-! ### The password last set -/

/-- The passwords the accounts have been given, as far as they are known. -/
structure Known (c : Crates) (pw : Uuid → Option String) (w : World) : Prop where
  steady : w.Steady 0 users
  unique : ∀ {d d' : Nat} {u u' : User}, w.row users d = some u → w.row users d' = some u' →
    users.clash u u' = true → d = d'
  hashed : ∀ {d : Nat} {u : User} {q : String}, w.row users d = some u → pw u.id = some q →
    ∃ salt, u.password_hash = c.bcrypt_hash q salt
  nonempty : ∀ {id : Uuid} {q : String}, pw id = some q → q ≠ ""

section Known

variable {c : Crates} {pw : Uuid → Option String} {w w' : World}

theorem Known.same (h : Known c pw w) (hst : w'.Steady 0 users)
    (hrows : ∀ d, w'.row users d = w.row users d) : Known c pw w' := by
  refine ⟨hst, fun {d d' u u'} hu hu' => ?_, fun {d u q} hu hq => ?_, h.nonempty⟩
  · rw [hrows] at hu hu'
    exact h.unique hu hu'
  · rw [hrows] at hu
    exact h.hashed hu hq

theorem Known.indexed (h : Known c pw w) : Indexed users w := ⟨h.steady, h.unique⟩

theorem Known.account_eq (h : Known c pw w) {d d' : Nat} {u u' : User}
    (hu : w.row users d = some u) (hu' : w.row users d' = some u')
    (hc : users.clash u u' = true) : u = u' := h.indexed.eq_of_clash hu hu' hc

/-- A row rewritten in other columns than its keys and its hash, without a clash. -/
theorem Known.updated (h : Known c pw w) (hst : w'.Steady 0 users) {id : Uuid} {dto : UpdateUser}
    {d₀ : Nat} {u₀ : User} (hu₀ : w.row users d₀ = some u₀) (hid : u₀.id = id)
    (hfree : ∀ {d v}, w.row users d = some v → v.id ≠ id → users.clash (u₀.update dto) v = false)
    (hrows : ∀ d, w'.row users d = (w.row users d).map fun v =>
      if v.id == id then v.update dto else v) : Known c pw w' := by
  refine ⟨hst, (h.indexed.renamed hst hu₀ hid hfree hrows).unique, fun {d u q} hu hq => ?_,
    h.nonempty⟩
  rw [hrows] at hu
  obtain ⟨v, hv, rfl⟩ := Option.map_eq_some_iff.mp hu
  by_cases hvid : (v.id == id) = true
  · rw [if_pos hvid] at hq ⊢
    exact h.hashed (u := v) hv hq
  · rw [if_neg hvid] at hq ⊢
    exact h.hashed hv hq

/-- One account's hash rewritten. -/
theorem Known.rehashed (h : Known c pw w) (hst : w'.Steady 0 users) {id : Uuid} {q : String}
    {salt : Nat} {f : User → User} (hq : q ≠ "")
    (hf : ∀ u, (f u).id = u.id ∧ (f u).username = u.username ∧ (f u).email = u.email ∧
      (f u).password_hash = c.bcrypt_hash q salt)
    (hrows : ∀ d, w'.row users d = (w.row users d).map fun v => if UserIs id v then f v else v) :
    Known c (Function.update pw id (some q)) w' := by
  have hold : ∀ {d u}, w'.row users d = some u → ∃ v, w.row users d = some v ∧
      (∀ x, users.clash u x = users.clash v x) ∧ u.id = v.id ∧
      (v.id = id ∧ u.password_hash = c.bcrypt_hash q salt ∨ v.id ≠ id ∧ u = v) := by
    intro d u hu
    rw [hrows] at hu
    obtain ⟨v, hv, rfl⟩ := Option.map_eq_some_iff.mp hu
    obtain ⟨hid, hname, hemail, hhash⟩ := hf v
    refine ⟨v, hv, ?_⟩
    by_cases hvid : v.id = id
    · simp [UserIs, hvid, users, hid, hname, hemail, hhash]
    · simp [UserIs, hvid]
  refine ⟨hst, fun {d d' u u'} hu hu' hc => ?_, fun {d u p} hu hp => ?_, fun {i p} hp => ?_⟩
  · obtain ⟨v, hv, hclash, -⟩ := hold hu
    obtain ⟨v', hv', hclash', -⟩ := hold hu'
    rw [hclash, users_clash_comm, hclash', users_clash_comm] at hc
    exact h.unique hv hv' hc
  · obtain ⟨v, hv, -, hid, ⟨hvid, hhash⟩ | ⟨hvid, rfl⟩⟩ := hold hu
    · rw [hid, hvid, Function.update_self] at hp
      cases hp
      exact ⟨salt, hhash⟩
    · rw [Function.update_of_ne hvid] at hp
      exact h.hashed hv hp
  · by_cases hi : i = id
    · rw [hi, Function.update_self] at hp
      cases hp
      exact hq
    · rw [Function.update_of_ne hi] at hp
      exact h.nonempty hp

/-- An account added. -/
theorem Known.added (h : Known c pw w) (hst : w'.Steady 0 users) {u₀ : User} {q : String}
    {salt : Nat} (hq : q ≠ "") (hhash : u₀.password_hash = c.bcrypt_hash q salt)
    (hfree : ∀ {d v}, w.row users d = some v → users.clash u₀ v = false)
    (hrows : ∀ d, w'.row users d = if d = w.db.length then some u₀ else w.row users d)
    {d : Nat} {u : User} (hu : w'.row users d = some u) (hemail : u.email = u₀.email) :
    Known c (Function.update pw u.id (some q)) w' := by
  have hold : ∀ {d u}, w'.row users d = some u →
      d = w.db.length ∧ u = u₀ ∨ d ≠ w.db.length ∧ w.row users d = some u := by
    intro d u hu
    rw [hrows] at hu
    by_cases hd : d = w.db.length
    · rw [if_pos hd] at hu
      exact .inl ⟨hd, (Option.some.inj hu).symm⟩
    · rw [if_neg hd] at hu
      exact .inr ⟨hd, hu⟩
  have hunique : ∀ {d d' : Nat} {v v' : User}, w'.row users d = some v → w'.row users d' = some v' →
      users.clash v v' = true → d = d' := by
    intro d d' v v' hv hv' hc
    rcases hold hv with ⟨hd, rfl⟩ | ⟨hd, hv⟩ <;> rcases hold hv' with ⟨hd', rfl⟩ | ⟨hd', hv'⟩
    · rw [hd, hd']
    · rw [hfree hv'] at hc
      cases hc
    · rw [users_clash_comm, hfree hv] at hc
      cases hc
    · exact h.unique hv hv' hc
  have hu₀ : u = u₀ := by
    have hnew : w'.row users w.db.length = some u₀ := by rw [hrows, if_pos rfl]
    have hd := hunique hu hnew (by simp [users, hemail])
    rw [hd] at hu
    exact Option.some.inj (hu.symm.trans hnew)
  subst hu₀
  refine ⟨hst, hunique, fun {d v p} hv hp => ?_, fun {i p} hp => ?_⟩
  · rcases hold hv with ⟨-, rfl⟩ | ⟨-, hv⟩
    · rw [Function.update_self] at hp
      cases hp
      exact ⟨salt, hhash⟩
    · by_cases hid : v.id = u.id
      · have hclash := hfree hv
        rw [clash_of_id hid.symm] at hclash
        cases hclash
      · rw [Function.update_of_ne hid] at hp
        exact h.hashed hv hp
  · by_cases hi : i = u.id
    · rw [hi, Function.update_self] at hp
      cases hp
      exact hq
    · rw [Function.update_of_ne hi] at hp
      exact h.nonempty hp

end Known

/-! ### Whole runs -/

/-- The routes that may set a password. -/
def Request.sets_password {Reg Cred : Type} : Request Reg Cred → Prop
  | .register _ => True
  | .change_password _ _ _ => True
  | .confirm_password_reset _ => True
  | _ => False

section History

variable {Reg Cred : Type} (c : Crates) (jwt_svc : JwtService) (wa : Webauthn Reg Cred)
  (rows : List Record)

/-- The states requests lead to, each run to its end, with the password each account was last
given by a `register`, `change_password` or `confirm_password_reset` that succeeded. -/
inductive History : World → (Uuid → Option String) → Prop where
  | start : History (World.of rows) fun _ => none
  | register {w w' : World} {pw : Uuid → Option String} {username email password : String} {d : Nat}
      {u : User} (h : History w pw)
      (hsvc : Prog.Exec (World.answer c) 0 Anyhow
        (UserService.register c username email password).run w (.ok ()) w')
      (hu : w'.row users d = some u) (hemail : u.email = email) :
      History w' (Function.update pw u.id (some password))
  | register_fails {w w' : World} {pw : Uuid → Option String} {username email password : String}
      {e : AuthError} (h : History w pw)
      (hsvc : Prog.Exec (World.answer c) 0 Anyhow
        (UserService.register c username email password).run w (.error e) w') : History w' pw
  | change {w w₁ w' : World} {pw : Uuid → Option String} {cmd : ChangePasswordCmd}
      {params : SessionParams} {resp : HttpResponse} (h : History w pw)
      (hsvc : Prog.Exec (World.answer c) 0 Anyhow (UserService.change_password c cmd).run w
        (.ok ()) w₁)
      (hrest : Prog.Exec (World.answer c) 0 Anyhow (after_change c cmd.user_id params) w₁ resp w') :
      History w' (Function.update pw cmd.user_id (some cmd.new_password))
  | change_fails {w w' : World} {pw : Uuid → Option String} {cmd : ChangePasswordCmd}
      {e : AuthError} (h : History w pw)
      (hsvc : Prog.Exec (World.answer c) 0 Anyhow (UserService.change_password c cmd).run w
        (.error e) w') : History w' pw
  | reset {w w₁ w' : World} {pw : Uuid → Option String} {cmd : ConfirmPasswordResetCmd}
      {user_id : Uuid} {resp : HttpResponse} (h : History w pw)
      (hsvc : Prog.Exec (World.answer c) 0 Anyhow (UserService.confirm_password_reset c cmd).run w
        (.ok user_id) w₁)
      (hrest : Prog.Exec (World.answer c) 0 Anyhow (after_reset user_id) w₁ resp w') :
      History w' (Function.update pw user_id (some cmd.new_password))
  | reset_fails {w w' : World} {pw : Uuid → Option String} {cmd : ConfirmPasswordResetCmd}
      {e : AuthError} (h : History w pw)
      (hsvc : Prog.Exec (World.answer c) 0 Anyhow (UserService.confirm_password_reset c cmd).run w
        (.error e) w') : History w' pw
  | other {w w' : World} {pw : Uuid → Option String} {req : Request Reg Cred} {resp : HttpResponse}
      (h : History w pw) (hreq : ¬ req.sets_password)
      (hrun : Prog.Exec (World.answer c) 0 Anyhow (req.handler c jwt_svc wa) w resp w') :
      History w' pw
  | expire {w : World} {pw : Uuid → Option String} (h : History w pw) (e : Expiry) :
      History (w.expire e) pw

variable {c jwt_svc wa rows}

/-- Outside the three, accounts are touched only through the repository. -/
theorem Request.accounts {req : Request Reg Cred} (hreq : ¬ req.sets_password) {o : Op}
    (h : Plain o ∨ req.special o) :
    (∀ q, o.statement = some q → Apart users.prj q) ∨ UserUpdate o := by
  rcases h with h | h
  · exact .inl fun q hq => h.apart users_elsewhere hq
  have logins : PasskeyLogin o → ∀ q, o.statement = some q → Apart users.prj q := by
    rintro (⟨hc⟩ | ⟨p, data, now⟩) q hq
    · cases o <;> first | exact hc.elim | cases hq
    · cases hq
      exact apart_set (U := passkey_credentials) fun _ => rfl
  cases req with
  | register req => exact (hreq trivial).elim
  | confirm_password_reset payload => exact (hreq trivial).elim
  | change_password cookie req params => exact (hreq trivial).elim
  | refresh cmd | jwt cookie =>
      obtain ⟨ex, t, rfl⟩ := h
      refine .inl ?_
      rintro q ⟨⟩
      exact apart_insert (U := refresh_tokens) fun _ => rfl
  | update_user cookie id dto => exact .inr h
  | confirm link params | confirm_token token nonce params =>
      obtain ⟨id, rfl⟩ := h
      exact .inr ⟨id, _, rfl⟩
  | passkey_register_finish cookie label credential =>
      obtain ⟨mk, rfl⟩ := h
      refine .inl ?_
      rintro q ⟨⟩
      exact apart_insert (U := passkey_credentials) fun _ => rfl
  | passkey_remove cookie row_id =>
      obtain ⟨p, rfl⟩ := h
      refine .inl ?_
      rintro q ⟨⟩
      exact apart_delete (U := passkey_credentials) fun _ => rfl
  | passkey_login_start username => exact .inl (logins h)
  | passkey_login_finish username credential params => exact .inl (logins h)
  | _ => exact h.elim

variable {pw : Uuid → Option String}

theorem Known.step {o : Op} {ch : Choice} {w w' : World} {r : o.Reply}
    (ho : (∀ q, o.statement = some q → Apart users.prj q) ∨ UserUpdate o)
    (h : World.answer c 0 o ch w = some (w', r)) (hk : Known c pw w) : Known c pw w' := by
  rcases ho with ho | ⟨id, dto, rfl⟩
  · obtain ⟨hst, hrows⟩ := Apart.frame ho h hk.steady
    exact hk.same hst hrows
  · obtain ⟨hst, hsame | ⟨d₀, u, hu, hid, hfree, hrows⟩⟩ := update_accounts h hk.steady
    · exact hk.same hst hsame
    · exact hk.updated hst hu hid hfree hrows

theorem Orderly.known {α : Type} {p : Handler α} (hp : Orderly c 0 Plain p) :
    Keeps c 0 Anyhow (Known c pw) p :=
  keeps_of_uses hp.uses fun _ _ _ _ _ ho _ hans hk =>
    hk.step (.inl fun _ hq => ho.apart users_elsewhere hq) hans

/-- What holds of every state requests lead to. -/
theorem History.known (hzero : c.zxcvbn_score "" < 3) (hrows : UniqueAccounts rows) {w : World}
    (h : History c jwt_svc wa rows w pw) : w.Settled 0 ∧ Known c pw w := by
  induction h with
  | start =>
      have hset : (World.of rows).Settled 0 := settled_of 0 rows
      exact ⟨hset, hset.steady users,
        fun hu hu' => hrows _ _ _ _ (row_of_iff.mp hu) (row_of_iff.mp hu'),
        fun _ hq => (nomatch hq), fun hq => (nomatch hq)⟩
  | @register w w' pw username email password d u _ hsvc hu hemail ih =>
      obtain ⟨hset, hk⟩ := ih
      obtain ⟨u₀, salt, -, hemail₀, hhash, hne, hfree, hplaces, hset'⟩ :=
        register_ends hset username email password _ _ hsvc
      refine ⟨hset', hk.added (hset'.steady users) hne hhash (fun hv => ?_)
        (row_of_insert hplaces) hu (hemail.trans hemail₀.symm)⟩
      exact hfree _ (mem_sees_iff.mpr ⟨_, (hk.steady _).trans hv⟩)
  | register_fails _ hsvc ih =>
      obtain rfl := register_ends ih.1 _ _ _ _ _ hsvc
      exact ih
  | @change w w₁ w' pw cmd params resp _ hsvc hrest ih =>
      obtain ⟨hset, hk⟩ := ih
      obtain ⟨⟨u, us, salt, -, -, hplaces⟩, hscore, hset₁, -⟩ :=
        change_password_ends hset cmd _ _ hsvc
      have hne : cmd.new_password ≠ "" := fun he => hscore (he ▸ hzero)
      have hk₁ := hk.rehashed (hset₁.steady users) hne
        (f := (·.with_hash (c.bcrypt_hash cmd.new_password salt)))
        (fun u => ⟨rfl, rfl, rfl, rfl⟩) (row_of_update hplaces)
      have hafter : Orderly c 0 Plain (after_change c cmd.user_id params) :=
        after_change_orderly _ _
      exact ⟨hafter.settles hset₁ _ _ hrest, hafter.known _ hk₁ _ _ hrest⟩
  | change_fails _ hsvc ih =>
      obtain rfl := change_password_ends ih.1 _ _ _ hsvc
      exact ih
  | @reset w w₁ w' pw cmd user_id resp _ hsvc hrest ih =>
      obtain ⟨hset, hk⟩ := ih
      obtain ⟨⟨salt, now, hplaces⟩, hscore, hset₁⟩ := confirm_password_reset_ends hset cmd _ _ hsvc
      have hne : cmd.new_password ≠ "" := fun he => hscore (he ▸ hzero)
      have hk₁ := hk.rehashed (hset₁.steady users) hne
        (f := (·.with_hash_at (c.bcrypt_hash cmd.new_password salt) now))
        (fun u => ⟨rfl, rfl, rfl, rfl⟩) (row_of_reset hplaces)
      have hafter : Orderly c 0 Plain (after_reset user_id) := after_reset_orderly _
      exact ⟨hafter.settles hset₁ _ _ hrest, hafter.known _ hk₁ _ _ hrest⟩
  | reset_fails _ hsvc ih =>
      obtain ⟨hplaces, hset'⟩ := confirm_password_reset_ends ih.1 _ _ _ hsvc
      exact ⟨hset', ih.2.same (hset'.steady users) fun d => by
        rw [row_of_places, row_of_places, hplaces]⟩
  | @other w w' pw req resp _ hreq hrun ih =>
      have horderly : Orderly c 0 _ (req.handler c jwt_svc wa) := req.orderly jwt_svc wa
      refine ⟨horderly.settles ih.1 _ _ hrun, ?_⟩
      exact hrun.invariant horderly.uses
        (fun _ _ _ _ _ ho _ hans hk => hk.step (req.accounts hreq ho) hans) ih.2
  | @expire w pw _ e ih =>
      have hdb := World.expire_db e w
      have hset' : (w.expire e).Settled 0 := by
        rw [World.Settled, hdb]
        exact ih.1
      exact ⟨hset', ih.2.same (hset'.steady users) fun d => by rw [World.row, hdb]; rfl⟩

/-- Every run of requests is such a history. -/
theorem History.of_runs {served : List (Request Reg Cred × HttpResponse)} {w w' : World}
    (hruns : Runs c jwt_svc wa Anyhow w served w') :
    ∀ {pw : Uuid → Option String} (_ : UniqueAccounts rows) (_ : c.zxcvbn_score "" < 3)
      (_ : History c jwt_svc wa rows w pw), ∃ pw', History c jwt_svc wa rows w' pw' := by
  induction hruns with
  | nil => exact fun {pw} _ _ h => ⟨pw, h⟩
  | expire e _ ih => exact fun hrows hzero h => ih hrows hzero (h.expire e)
  | @request req resp w w₁ w' rest hreq _ ih =>
      intro pw hrows hzero h
      obtain ⟨hset, hk⟩ := h.known hzero hrows
      suffices hnext : ∃ pw₁, History c jwt_svc wa rows w₁ pw₁ from
        hnext.elim fun pw₁ h₁ => ih hrows hzero h₁
      cases req with
      | register req =>
          change Prog.Exec _ _ _ (handlers.register c req) w resp w₁ at hreq
          unfold handlers.register at hreq
          by_cases hvalid : (!req.validate c) = true
          · rw [if_pos hvalid] at hreq
            obtain ⟨-, rfl⟩ := Prog.exec_ret.mp hreq
            exact ⟨pw, h⟩
          rw [if_neg hvalid] at hreq
          obtain ⟨r, w₂, hsvc, hrest⟩ := Prog.exec_bind.mp hreq
          cases r with
          | error e =>
              obtain ⟨-, rfl⟩ := Prog.exec_ret.mp hrest
              exact ⟨pw, .register_fails h hsvc⟩
          | ok u =>
              obtain ⟨-, rfl⟩ := Prog.exec_ret.mp hrest
              obtain ⟨u₀, salt, -, hemail, -, -, -, hplaces, -⟩ :=
                register_ends hset _ _ _ _ _ hsvc
              refine ⟨_, .register h hsvc (d := w.db.length) (u := u₀) ?_ hemail⟩
              rw [row_of_insert hplaces, if_pos rfl]
              rfl
      | change_password cookie req params =>
          obtain ⟨session, w₂, hauth, hrest⟩ := Prog.exec_bind.mp hreq
          obtain rfl := exec_authenticate hauth
          change Option Identity at session
          cases session with
          | none =>
              obtain ⟨-, rfl⟩ := Prog.exec_ret.mp hrest
              exact ⟨pw, h⟩
          | some session =>
              obtain ⟨r, w₃, hsvc, hrest⟩ := Prog.exec_bind.mp hrest
              cases r with
              | error e =>
                  obtain ⟨-, rfl⟩ := Prog.exec_ret.mp hrest
                  exact ⟨pw, .change_fails h hsvc⟩
              | ok u => exact ⟨_, .change h hsvc hrest⟩
      | confirm_password_reset payload =>
          obtain ⟨r, w₂, hsvc, hrest⟩ := Prog.exec_bind.mp hreq
          cases r with
          | error e =>
              obtain ⟨-, rfl⟩ := Prog.exec_ret.mp hrest
              exact ⟨pw, .reset_fails h hsvc⟩
          | ok user_id => exact ⟨_, .reset h hsvc hrest⟩
      | _ =>
          refine ⟨pw, .other h ?_ hreq⟩
          exact fun hno => hno

/-- The login returns an account when nothing fails. -/
def Accepted (c : Crates) (svc : Service AuthError User) (w : World) : Prop :=
  ∃ v w', Prog.Exec (World.answer c) 0 NoFail svc.run w (.ok v) w'

/-- A login for an account goes by its hash alone. -/
theorem accepted_iff {w : World} (hk : Known c pw w) {q : String → User → Bool} {name p : String}
    {d : Nat} {u : User} (hu : w.row users d = some u) (hname : q name u = true)
    (hkey : ∀ v, q name v = true → users.clash u v = true) :
    Accepted c (credentials c q ⟨name, p⟩) w ↔
      name ≠ "" ∧ p ≠ "" ∧ c.bcrypt_verify p u.password_hash = some true := by
  have hhead : ((w.sees 0 users).filter (q name)).head? = some u := by
    have hmem : u ∈ (w.sees 0 users).filter (q name) :=
      List.mem_filter.mpr ⟨mem_sees_iff.mpr ⟨d, (hk.steady d).trans hu⟩, hname⟩
    have hall : ∀ v ∈ (w.sees 0 users).filter (q name), v = u := by
      intro v hv
      obtain ⟨hsees, hq⟩ := List.mem_filter.mp hv
      obtain ⟨d', hd'⟩ := mem_sees_iff.mp hsees
      exact (hk.account_eq hu ((hk.steady d').symm.trans hd') (hkey v hq)).symm
    cases hl : (w.sees 0 users).filter (q name) with
    | nil => rw [hl] at hmem; cases hmem
    | cons v vs => rw [List.head?_cons, hall v (hl ▸ List.mem_cons_self)]
  constructor
  · rintro ⟨v, w', hrun⟩
    obtain ⟨-, hn, hp, hv, hverify⟩ := exec_credentials.mp hrun
    rw [hhead] at hv
    cases hv
    exact ⟨hn, hp, hverify⟩
  · rintro ⟨hn, hp, hverify⟩
    exact ⟨u, w, exec_credentials.mpr ⟨rfl, hn, hp, hhead, hverify⟩⟩

/-- What the two logins need to judge the text tried, `p`, by the password last set, `q`: the
account can be named, and no other text is tried that bcrypt takes for the password. -/
structure Judged (u : User) (q p : String) : Prop where
  named : p = q → u.email ≠ "" ∧ u.username ≠ ""
  told : p ≠ q → p ≠ "" → bcrypt_key p = bcrypt_key q → u.email = "" ∧ u.username = ""

/-- **A login accepts exactly the password last set** if and only if bcrypt tells the text tried
from that password, and the account can be named at all. -/
theorem login_exact_iff (hbcrypt : BcryptExact c) (hzero : c.zxcvbn_score "" < 3)
    (hrows : UniqueAccounts rows) {w : World} (h : History c jwt_svc wa rows w pw) {d : Nat} {u : User}
    {q : String} (hu : w.row users d = some u) (hq : pw u.id = some q) (p : String) :
    ((Accepted c (UserService.password_login c ⟨u.email, p⟩) w ↔ p ≠ "" ∧ p = q) ∧
      (Accepted c (UserService.username_login c ⟨u.username, p⟩) w ↔ p ≠ "" ∧ p = q)) ↔
      Judged u q p := by
  obtain ⟨-, hk⟩ := h.known hzero hrows
  obtain ⟨salt, hhash⟩ := hk.hashed hu hq
  have hne := hk.nonempty hq
  have hverify : c.bcrypt_verify p u.password_hash = some true ↔ bcrypt_key p = bcrypt_key q := by
    rw [hhash, hbcrypt]
    simp
  have hemail : Accepted c (UserService.password_login c ⟨u.email, p⟩) w ↔
      u.email ≠ "" ∧ p ≠ "" ∧ bcrypt_key p = bcrypt_key q := by
    rw [password_login_eq, accepted_iff hk hu (by simp) fun v hv => ?_, hverify]
    simp only [beq_iff_eq] at hv
    simp [users, hv]
  have husername : Accepted c (UserService.username_login c ⟨u.username, p⟩) w ↔
      u.username ≠ "" ∧ p ≠ "" ∧ bcrypt_key p = bcrypt_key q := by
    rw [username_login_eq, accepted_iff hk hu (by simp) fun v hv => ?_, hverify]
    simp only [beq_iff_eq] at hv
    simp [users, hv]
  rw [hemail, husername]
  by_cases hp : p = q
  · subst hp
    have hown : p ≠ "" ∧ bcrypt_key p = bcrypt_key p := ⟨hne, rfl⟩
    have hright : p ≠ "" ∧ p = p := ⟨hne, rfl⟩
    rw [and_iff_left hown, and_iff_left hown, iff_true_right hright, iff_true_right hright]
    exact ⟨fun hnames => ⟨fun _ => hnames, fun hno => (hno rfl).elim⟩, fun hj => hj.named rfl⟩
  · have hwrong : ¬ (p ≠ "" ∧ p = q) := fun hr => hp hr.2
    rw [iff_false_right hwrong, iff_false_right hwrong]
    constructor
    · refine fun hno => ⟨fun heq => (hp heq).elim, fun _ hpne hkey => ⟨?_, ?_⟩⟩
      · exact of_not_not fun hmail => hno.1 ⟨hmail, hpne, hkey⟩
      · exact of_not_not fun hname => hno.2 ⟨hname, hpne, hkey⟩
    · intro hj
      exact ⟨fun hl => hl.1 (hj.told hp hl.2.1 hl.2.2).1, fun hl => hl.1 (hj.told hp hl.2.1 hl.2.2).2⟩

end History

/-! ### Two accounts -/

theorem char_of_byte_injective {a b : UInt8} (h : Char.ofNat a.toNat = Char.ofNat b.toNat) :
    a = b := by
  have hback : ∀ x : UInt8, (Char.ofNat x.toNat).toNat = x.toNat := by
    intro x
    have hvalid : x.toNat.isValidChar := .inl (by have hlt := x.toNat_lt; omega)
    rw [Char.ofNat, dif_pos hvalid]
    rfl
  exact UInt8.toNat_inj.mp (by rw [← hback a, h, hback b])

theorem dropWhile_dots (salt : Nat) (l : List Char) :
    (List.replicate salt '.' ++ '$' :: l).dropWhile (fun ch => ch == '.') = '$' :: l := by
  induction salt with
  | zero => rfl
  | succ n ih => exact ih

theorem sample_bcrypt_exact : BcryptExact sample_crates := by
  intro p q salt
  have hhash : (sample_crates.bcrypt_hash q salt).toList = "$2b$10$".toList ++
      List.replicate salt '.' ++ '$' :: (bcrypt_key q).map fun b => Char.ofNat b.toNat :=
    String.toList_ofList
  simp only [sample_crates] at hhash ⊢
  rw [hhash]
  change some (((List.replicate salt '.' ++ '$' :: (bcrypt_key q).map fun b =>
    Char.ofNat b.toNat).dropWhile fun ch => ch == '.') == _) = _
  rw [dropWhile_dots]
  refine congrArg some (Bool.eq_iff_iff.mpr ?_)
  rw [beq_iff_eq, decide_eq_true_iff]
  constructor
  · intro h
    exact (List.map_injective_iff.mpr (fun _ _ => char_of_byte_injective)
      (List.cons.inj h).2).symm
  · intro h
    rw [h]

/-- A passphrase of 72 bytes. -/
def passphrase : String :=
  "violet ladder engine cactus marble tunnel orchid hammer falcon quartz ba"

/-- Bob registers with this password, and nothing fails. -/
def bob_registers (password : String) : Handler (Except AuthError Unit) :=
  (UserService.register sample_crates "bob" "bob@example.com" password).run

/-- Bob's logins take his password, and not another one. -/
theorem login_exact_for_bob : ∃ w pw d u,
    History sample_crates sample_jwt sample_webauthn [] w pw ∧ w.row users d = some u ∧
      pw u.id = some "correct horse battery staple" ∧
      ((Accepted sample_crates (UserService.password_login sample_crates
            ⟨u.email, "correct horse battery"⟩) w ↔
          "correct horse battery" ≠ "" ∧
            "correct horse battery" = "correct horse battery staple") ∧
        (Accepted sample_crates (UserService.username_login sample_crates
            ⟨u.username, "correct horse battery"⟩) w ↔
          "correct horse battery" ≠ "" ∧
            "correct horse battery" = "correct horse battery staple")) := by
  have hrun : ∃ w u, Prog.exec? (World.answer sample_crates) 0 (fun _ _ _ => true)
      [.number 0, .time 0, .key 5] (bob_registers "correct horse battery staple") (World.of []) =
        some (.ok (), w) ∧ w.row users 0 = some u ∧ u.email = "bob@example.com" :=
    ⟨_, _, rfl, rfl, rfl⟩
  obtain ⟨w, u, hrun, hu, hemail⟩ := hrun
  have h : History sample_crates sample_jwt sample_webauthn [] w _ :=
    .register .start ((Prog.exec_of_exec? hrun).mono fun _ _ _ _ => trivial) hu hemail
  have hq : Function.update (fun _ => none) u.id (some "correct horse battery staple") u.id =
      some "correct horse battery staple" := Function.update_self ..
  refine ⟨w, _, 0, u, h, hu, hq, (login_exact_iff sample_bcrypt_exact (by decide)
    (fun d _ _ _ hd => by simp at hd) h hu hq "correct horse battery").mpr ⟨?_, ?_⟩⟩
  · exact fun heq => absurd heq (by decide)
  · exact fun _ _ hkey => absurd hkey (by decide)

/-- **A password of 72 bytes lets a longer one in.** -/
theorem longer_password_accepted : ∃ w pw d u,
    History sample_crates sample_jwt sample_webauthn [] w pw ∧ w.row users d = some u ∧
      pw u.id = some passphrase ∧ passphrase ++ "y" ≠ "" ∧ passphrase ++ "y" ≠ passphrase ∧
      Accepted sample_crates
        (UserService.password_login sample_crates ⟨u.email, passphrase ++ "y"⟩) w := by
  have hrun : ∃ w u v, Prog.exec? (World.answer sample_crates) 0 (fun _ _ _ => true)
      [.number 0, .time 0, .key 5] (bob_registers passphrase) (World.of []) = some (.ok (), w) ∧
        w.row users 0 = some u ∧ u.email = "bob@example.com" ∧
        Prog.exec? (World.answer sample_crates) 0 (fun _ _ ch => ch != .fail) [.go]
          (UserService.password_login sample_crates ⟨"bob@example.com", passphrase ++ "y"⟩).run w =
            some (.ok v, w) := ⟨_, _, _, rfl, rfl, rfl, rfl⟩
  obtain ⟨w, u, v, hrun, hu, hemail, hlogin⟩ := hrun
  refine ⟨w, _, 0, u,
    .register .start ((Prog.exec_of_exec? hrun).mono fun _ _ _ _ => trivial) hu hemail, hu,
    Function.update_self .., by decide, by decide, v, w, ?_⟩
  rw [hemail]
  exact (Prog.exec_of_exec? hlogin).mono fun _ _ _ h => by simpa [NoFail] using h

end Authnz
