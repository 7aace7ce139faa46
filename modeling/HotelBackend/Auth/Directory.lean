import HotelBackend.Auth.Discipline
import HotelBackend.Theory.Views

/-!
# Whose account a Google subject is

The addresses of the users and the links from Google subjects to users (`Directory`), the unique keys
they satisfy (`Directory.Inv`), and what a transaction that does not hold an index entry leaves alone
(`Directory.Keeps`). A link is never taken back.

A login reads before it writes, and the rows it has not found may be inserted by another login in
between: then its own insert finds them, and fails. What holds when the insert succeeds is carried to
the commit by the entry it locks. The other calls do not touch addresses or links, and every call
leaves a link where it was (`directory_promises`).
-/

namespace HotelBackend.Auth

open HotelBackend.Theory
open HotelBackend.Theory.Transactions
open HotelBackend.Users

/-- The address of a user, by its weight. -/
structure Address where
  userId : ℕ
  weight : String
  deriving DecidableEq

/-- An identity, without the address it came with. -/
structure Link where
  id : ℕ
  userId : ℕ
  provider : AuthProvider
  subject : String
  deriving DecidableEq

/-- The addresses and the links. -/
structure Directory where
  addresses : List Address
  links : List Link

namespace Directory

/-- The subject is linked to the user. -/
def Linked (d : Directory) (subject : String) (userId : ℕ) : Prop :=
  ∃ x ∈ d.links, x.provider = .google ∧ x.subject = subject ∧ x.userId = userId

/-- The unique keys. -/
structure Inv (d : Directory) : Prop where
  /-- `uq_users_email` -/
  addresses : ∀ x ∈ d.addresses, ∀ y ∈ d.addresses, x.weight = y.weight → x.userId = y.userId
  /-- `uq_auth_identities_provider_subject` -/
  subjects : Table.UniqueBy (fun x : Link => (x.provider, x.subject)) d.links
  /-- `uq_auth_identities_user_provider` -/
  users : Table.UniqueBy (fun x : Link => (x.userId, x.provider)) d.links

/-- What a transaction that does not hold the key leaves alone. -/
def Keeps : AuthKey → Directory → Directory → Prop
  | .userEmail weight, a, b => ∀ x ∈ b.addresses, x.weight = weight → x ∈ a.addresses
  | .identity id, a, b => ∀ x ∈ a.links, x.id = id → x ∈ b.links
  | .identitySubject provider subject, a, b => ∀ x ∈ b.links, x.provider = provider → x.subject = subject → x ∈ a.links
  | .identityUser userId provider, a, b => ∀ x ∈ b.links, x.userId = userId → x.provider = provider → x ∈ a.links
  | _, _, _ => True

theorem Keeps.refl (k : AuthKey) (d : Directory) : Keeps k d d := by
  cases k with
  | userEmail weight => exact fun _ hx _ => hx
  | identity id => exact fun _ hx _ => hx
  | identitySubject provider subject => exact fun _ hx _ _ => hx
  | identityUser userId provider => exact fun _ hx _ _ => hx
  | _ => trivial

theorem Keeps.trans {k : AuthKey} {a b c : Directory} (hab : Keeps k a b) (hbc : Keeps k b c) : Keeps k a c := by
  cases k with
  | userEmail weight => exact fun x hx hw => hab x (hbc x hx hw) hw
  | identity id => exact fun x hx hid => hbc x (hab x hx hid) hid
  | identitySubject provider subject => exact fun x hx hp hs => hab x (hbc x hx hp hs) hp hs
  | identityUser userId provider => exact fun x hx hu hp => hab x (hbc x hx hu hp) hu hp
  | _ => trivial

/-- What the transactions agree on. -/
def discipline : Discipline Directory AuthKey := ⟨Inv, Keeps, Keeps.refl, fun _ _ _ _ => Keeps.trans⟩

/-! ### The changes -/

/-- A change a transaction with the keys `held` may commit. -/
structure Change (held : Set AuthKey) (a b : Directory) : Prop where
  inv : b.Inv
  keeps : ∀ k, k ∉ held → Keeps k a b
  links : ∀ x ∈ a.links, x ∈ b.links

def addAddress (d : Directory) (x : Address) : Directory := { d with addresses := d.addresses ++ [x] }

def changeAddress (d : Directory) (x : Address) : Directory :=
  { d with addresses := Table.update d.addresses (·.userId = x.userId) fun y => { y with weight := x.weight } }

def addLink (d : Directory) (x : Link) : Directory := { d with links := d.links ++ [x] }

section Changes

variable {held : Set AuthKey} {a b c : Directory} {x : Address} {l : Link}

theorem Change.refl (h : a.Inv) : Change held a a := ⟨h, fun k _ => .refl k a, fun _ hx => hx⟩

theorem Change.trans (hab : Change held a b) (hbc : Change held b c) : Change held a c :=
  ⟨hbc.inv, fun k hk => (hab.keeps k hk).trans (hbc.keeps k hk), fun x hx => hbc.links x (hab.links x hx)⟩

theorem Change.mono {held' : Set AuthKey} (h : Change held a b) (hheld : held ⊆ held') : Change held' a b :=
  ⟨h.inv, fun k hk => h.keeps k fun hk' => hk (hheld hk'), h.links⟩

/-- A change of the addresses that adds only `x`. -/
theorem change_of_addresses {d : Directory} (hlinks : d.links = a.links) (hadded : ∀ y ∈ d.addresses, y ∈ a.addresses ∨ y.weight = x.weight)
    (hinv : d.Inv) (hheld : .userEmail x.weight ∈ held) : Change held a d where
  inv := hinv
  keeps k hk := by
    cases k with
    | userEmail weight =>
      intro y hy hw
      refine (hadded y hy).resolve_right fun hwx => hk ?_
      rwa [← hw, hwx]
    | identity id => exact fun y hy _ => hlinks ▸ hy
    | identitySubject provider subject => exact fun y hy _ _ => hlinks ▸ hy
    | identityUser userId provider => exact fun y hy _ _ => hlinks ▸ hy
    | _ => trivial
  links y hy := hlinks ▸ hy

/-- A new user takes an address nobody has. -/
theorem change_addAddress (h : a.Inv) (hnew : ∀ y ∈ a.addresses, y.weight ≠ x.weight) (hheld : .userEmail x.weight ∈ held) :
    Change held a (a.addAddress x) := by
  apply change_of_addresses (x := x)
  · rfl
  · intro y hy
    rcases List.mem_append.1 hy with hy | hy
    · exact .inl hy
    · exact .inr (List.mem_singleton.1 hy ▸ rfl)
  · refine ⟨fun y hy z hz hw => ?_, h.subjects, h.users⟩
    simp only [addAddress, List.mem_append, List.mem_singleton] at hy hz
    rcases hy with hy | rfl <;> rcases hz with hz | rfl
    · exact h.addresses y hy z hz hw
    · exact absurd hw (hnew y hy)
    · exact absurd hw.symm (hnew z hz)
    · rfl
  · exact hheld

/-- A user takes an address no other user has. -/
theorem change_changeAddress (h : a.Inv) (hnew : ∀ y ∈ a.addresses, y.weight = x.weight → y.userId = x.userId)
    (hheld : .userEmail x.weight ∈ held) : Change held a (a.changeAddress x) := by
  have hmem : ∀ y ∈ (a.changeAddress x).addresses, (y.userId = x.userId ∧ y.weight = x.weight) ∨ y ∈ a.addresses ∧ y.userId ≠ x.userId := by
    intro y hy
    obtain ⟨z, hz, ⟨hid, rfl⟩ | ⟨hid, rfl⟩⟩ := Table.mem_update.1 hy
    · exact .inl ⟨of_decide_eq_true hid, rfl⟩
    · exact .inr ⟨hz, of_decide_eq_false hid⟩
  apply change_of_addresses (x := x)
  · rfl
  · intro y hy
    rcases hmem y hy with ⟨-, hw⟩ | ⟨hy, -⟩
    · exact .inr hw
    · exact .inl hy
  · refine ⟨fun y hy z hz hw => ?_, h.subjects, h.users⟩
    rcases hmem y hy with ⟨hyid, hyw⟩ | ⟨hy, hyid⟩ <;> rcases hmem z hz with ⟨hzid, hzw⟩ | ⟨hz, hzid⟩
    · rw [hyid, hzid]
    · exact absurd (hnew z hz (by rw [← hw, hyw])) hzid
    · exact absurd (hnew y hy (by rw [hw, hzw])) hyid
    · exact h.addresses y hy z hz hw
  · exact hheld

/-- A link of a subject and a user neither of whom has one. -/
theorem change_addLink (h : a.Inv) (hsubject : ∀ y ∈ a.links, ¬ (y.provider = l.provider ∧ y.subject = l.subject))
    (huser : ∀ y ∈ a.links, ¬ (y.userId = l.userId ∧ y.provider = l.provider)) (hheldSubject : .identitySubject l.provider l.subject ∈ held)
    (hheldUser : .identityUser l.userId l.provider ∈ held) : Change held a (a.addLink l) where
  inv := by
    refine ⟨h.addresses, h.subjects.insert fun y hy he => hsubject y hy ?_, h.users.insert fun y hy he => huser y hy ?_⟩
    · simpa using he
    · simpa using he
  keeps k hk := by
    have hold : ∀ y ∈ (a.addLink l).links, y ≠ l → y ∈ a.links := by
      intro y hy hne
      simp only [addLink, List.mem_append, List.mem_singleton] at hy
      exact hy.resolve_right hne
    cases k with
    | userEmail weight => exact fun y hy _ => hy
    | identity id => exact fun y hy _ => List.mem_append_left _ hy
    | identitySubject provider subject =>
      intro y hy hp hs
      refine hold y hy ?_
      rintro rfl
      exact hk (hp ▸ hs ▸ hheldSubject)
    | identityUser userId provider =>
      intro y hy hu hp
      refine hold y hy ?_
      rintro rfl
      exact hk (hu ▸ hp ▸ hheldUser)
    | _ => trivial
  links y hy := List.mem_append_left _ hy

end Changes

end Directory

open Directory

/-! ### What a call does to the directory -/

def addressOf (cfg : AuthConfig) (u : User) : Address := ⟨u.id, cfg.collate u.email⟩

def AuthIdentity.link (i : AuthIdentity) : Link := ⟨i.id, i.userId, i.provider, i.providerSubject⟩

/-- The directory of the database. -/
def AuthDb.directory (cfg : AuthConfig) (db : AuthDb) : Directory := ⟨db.users.map (addressOf cfg), db.identities.map AuthIdentity.link⟩

/-- What the transactions agree on. -/
abbrev directoryDiscipline (cfg : AuthConfig) : Discipline AuthDb AuthKey := Directory.discipline.comap (AuthDb.directory cfg)

/-- A call takes no link back; a login that answers has linked its subject to the user of its session. -/
structure DirectoryEffect (cfg : AuthConfig) (i : AuthCall) (a : AuthAnswer) (b c : AuthDb) : Prop where
  links : ∀ x ∈ (b.directory cfg).links, x ∈ (c.directory cfg).links
  login : ∀ claims x, i = .login claims → a = .session x →
    (c.directory cfg).Linked claims.subject x.userId ∧ ∃ s ∈ c.sessions, s.id = x.sessionId ∧ s.userId = x.userId

/-- Call `i` follows the discipline, and does this. -/
def DirectoryPromises (cfg : AuthConfig) (i : AuthCall) : Prop := ∀ db, (directoryDiscipline cfg).Inv db →
  (i.run cfg).wp (directoryDiscipline cfg) ((directoryDiscipline cfg).Ensures (DirectoryEffect cfg i)) ⟨∅, id, none, db⟩

section Statements

variable {cfg : AuthConfig} {l l' : AuthMid} {subject : String} {userId : ℕ}

/-- Its writes are a change it may commit, after which the subject is linked to the user. -/
def Enters (cfg : AuthConfig) (subject : String) (userId : ℕ) (l : AuthMid) : Prop := ∀ db, (directoryDiscipline cfg).Rely l.held l.db db →
  Change l.held (db.directory cfg) ((l.pend db).directory cfg) ∧ ((l.pend db).directory cfg).Linked subject userId

theorem Enters.calm (h : Enters cfg subject userId l) (hl : Calm Directory.discipline (AuthDb.directory cfg) l l') :
    Enters cfg subject userId l' := by
  intro db hr
  obtain ⟨hchange, hlinked⟩ := h db (hl.rely.trans hr hl.held)
  rw [hl.pend]
  exact ⟨hchange.mono hl.held, hlinked⟩

/-- A session is added for the user. -/
theorem wp_enter {claims : GoogleIdentityClaims} {user : User} (h : Enters cfg claims.subject user.id l) :
    (SessionService.createWithManager cfg user).wp (directoryDiscipline cfg)
      (fun x => (directoryDiscipline cfg).Ensures (DirectoryEffect cfg (.login claims)) (.session x)) l := by
  rw [SessionService.createWithManager, Txn.wp_bind, Txn.wp_require]
  intro _
  rw [Txn.wp_bind, insertSession, Txn.wp_writing]
  intro db hr x _ db' hr'
  obtain ⟨hchange, hlinked⟩ := h db' (hr.trans hr' Set.subset_union_left)
  refine ⟨hchange.inv, fun k hk => hchange.keeps k fun hk' => hk (.inl hk'), hchange.links, ?_⟩
  rintro claims' y ⟨⟩ ⟨⟩
  exact ⟨hlinked, _, List.mem_append_right _ (List.mem_singleton_self _), rfl, rfl⟩

/-- The program has changed an address, and no link. -/
structure Addressing (cfg : AuthConfig) (l l' : AuthMid) : Prop where
  rely : (directoryDiscipline cfg).Rely l.held l.db l'.db
  held : l.held ⊆ l'.held
  change : ∀ db, (directoryDiscipline cfg).Rely l'.held l'.db db → Change l'.held (db.directory cfg) ((l'.pend db).directory cfg)
  links : ∀ db, ((l'.pend db).directory cfg).links = (db.directory cfg).links

/-- A user whose address the write has found free has it until the commit. -/
theorem wp_saveUserEmail_addressing {id : ℕ} {email : String} {Q : Unit → AuthMid → Prop}
    (hpend : ∀ db, (l.pend db).directory cfg = db.directory cfg) (h : ∀ l', Addressing cfg l l' → Q () l') :
    (saveUserEmail cfg id email).wp (directoryDiscipline cfg) Q l := by
  rw [saveUserEmail, Txn.wp_bind, Txn.wp_reading]
  intro db hr
  rw [Txn.wp_bind, Txn.wp_writing]
  intro db' hr' x hok
  have hdirectory : ∀ d : AuthDb, AuthDb.directory cfg { l.pend d with users := Table.update (l.pend d).users (·.id = id) fun u => { u with email := email } } =
      (d.directory cfg).changeAddress ⟨id, cfg.collate email⟩ := by
    intro d
    rw [← hpend d]
    simp only [AuthDb.directory, changeAddress, Table.update, List.map_map, Directory.mk.injEq, and_true]
    refine List.map_congr_left fun u _ => ?_
    by_cases hid : u.id = id
    · simp [addressOf, hid]
    · simp [addressOf, hid]
  refine h _ ⟨hr.trans hr' subset_rfl, Set.subset_union_left, fun d hd => ?_, fun d => (congrArg Directory.links (hdirectory d) :)⟩
  show Change _ _ (AuthDb.directory cfg { l.pend d with users := _ })
  rw [hdirectory d]
  refine change_changeAddress hd.1 (fun y hy hw => ?_) (.inr (by simp))
  -- who has the address now had it when the write looked
  have hy' := hd.2 (.userEmail (cfg.collate email)) (.inr (by simp)) y hy hw
  rw [← hpend db'] at hy'
  obtain ⟨u, hu, rfl⟩ := List.mem_map.1 hy'
  have hfree := List.all_eq_true.1 hok u hu
  simp only [Bool.or_eq_true, decide_eq_true_eq] at hfree
  exact hfree.resolve_right fun hne => hne hw

/-- A new user whose address the insert has found free has it until the commit. -/
theorem wp_insertUser_addressing {row : AuthSupply → User} {Q : User → AuthMid → Prop}
    (hpend : ∀ db, (l.pend db).directory cfg = db.directory cfg) (h : ∀ x l', Addressing cfg l l' → Q (row x) l') :
    (insertUser cfg row).wp (directoryDiscipline cfg) Q l := by
  rw [insertUser, Txn.wp_bind, Txn.wp_writing]
  intro db hr x hok
  have hdirectory : ∀ d : AuthDb, AuthDb.directory cfg { l.pend d with users := (l.pend d).users ++ [row x] } =
      (d.directory cfg).addAddress (addressOf cfg (row x)) := by
    intro d
    rw [← hpend d]
    simp [AuthDb.directory, addAddress]
  refine h x _ ⟨hr, Set.subset_union_left, fun d hd => ?_, fun d => (congrArg Directory.links (hdirectory d) :)⟩
  show Change _ _ (AuthDb.directory cfg { l.pend d with users := _ })
  rw [hdirectory d]
  refine change_addAddress hd.1 (fun y hy hw => ?_) (.inr (by simp [addressOf]))
  have hy' := hd.2 (.userEmail (cfg.collate (row x).email)) (.inr (by simp)) y hy hw
  rw [← hpend db] at hy'
  obtain ⟨u, hu, rfl⟩ := List.mem_map.1 hy'
  rw [Bool.and_eq_true] at hok
  exact of_decide_eq_true (List.all_eq_true.1 hok.2 u hu) hw

/-- The subject and the user of a link are found without one, and are so until the commit. -/
theorem wp_insertIdentity_enters {l₀ : AuthMid} {row : AuthSupply → AuthIdentity} {Q : AuthSupply → AuthMid → Prop} (hl : Addressing cfg l₀ l)
    (hrow : ∀ x, (row x).provider = .google ∧ (row x).providerSubject = subject ∧ (row x).userId = userId)
    (h : ∀ x l', Enters cfg subject userId l' → Q x l') : (insertIdentity row).wp (directoryDiscipline cfg) Q l := by
  rw [insertIdentity, Txn.wp_writing]
  intro db hr x hok
  refine h x _ fun d hd => ?_
  have hdirectory : AuthDb.directory cfg { l.pend d with identities := (l.pend d).identities ++ [row x] } =
      ((l.pend d).directory cfg).addLink (row x).link := by
    simp [AuthDb.directory, addLink]
  show Change _ _ (AuthDb.directory cfg { l.pend d with identities := _ }) ∧ (AuthDb.directory cfg { l.pend d with identities := _ }).Linked _ _
  rw [hdirectory]
  rw [Bool.and_eq_true, List.all_eq_true] at hok
  have hchange := hl.change d (hr.trans hd Set.subset_union_left)
  refine ⟨(hchange.mono Set.subset_union_left).trans (change_addLink hchange.inv ?_ ?_ (.inr ?_) (.inr ?_)), _,
    List.mem_append_right _ (List.mem_singleton_self _), hrow x⟩
  · rintro y hy ⟨hp, hs⟩
    rw [hl.links] at hy
    have hy' := hd.2 (.identitySubject (row x).provider (row x).providerSubject) (.inr (by simp)) y hy hp hs
    rw [← hl.links] at hy'
    obtain ⟨i, hi, rfl⟩ := List.mem_map.1 hy'
    have hfree := hok.2 i hi
    simp_all [AuthIdentity.link]
  · rintro y hy ⟨hu, hp⟩
    rw [hl.links] at hy
    have hy' := hd.2 (.identityUser (row x).userId (row x).provider) (.inr (by simp)) y hy hu hp
    rw [← hl.links] at hy'
    obtain ⟨i, hi, rfl⟩ := List.mem_map.1 hy'
    have hfree := hok.2 i hi
    simp_all [AuthIdentity.link]
  · simp [AuthIdentity.link]
  · simp [AuthIdentity.link]

end Statements

/-! ### Logins -/

section Logins

variable {cfg : AuthConfig} {l : AuthMid} {claims : GoogleIdentityClaims}

theorem still_saveIdentityEmail (id : ℕ) (email : String) : (saveIdentityEmail id email).Still (AuthDb.directory cfg) := by
  refine .bind (.reading _) fun _ => .bind (.writing fun _ db => ?_) fun _ => .pure ()
  have hlinks : (Table.update db.identities (·.id = id) fun i => { i with providerEmail := email }).map AuthIdentity.link =
      db.identities.map AuthIdentity.link := Table.map_update fun _ _ _ => rfl
  simp [AuthDb.directory, hlinks]

/-- A returning user, whose link is held. -/
theorem wp_updateReturningIdentity_enters {identity : AuthIdentity} {user : User} (hinv : (directoryDiscipline cfg).Inv l.db)
    (hpend : ∀ db, (l.pend db).directory cfg = db.directory cfg) (hlink : identity.link ∈ (l.db.directory cfg).links)
    (hheld : .identity identity.id ∈ l.held) (hgoogle : identity.provider = .google) (hsubject : identity.providerSubject = claims.subject)
    (huser : identity.userId = user.id) : (AuthService.updateReturningIdentity cfg identity user claims).wp (directoryDiscipline cfg)
      (fun x => (directoryDiscipline cfg).Ensures (DirectoryEffect cfg (.login claims)) (.session x)) l := by
  have hlinked : ∀ db, (directoryDiscipline cfg).Rely l.held l.db db → (db.directory cfg).Linked claims.subject user.id :=
    fun db hr => ⟨identity.link, hr.2 (.identity identity.id) hheld _ hlink rfl, hgoogle, hsubject, huser⟩
  have hsession : ∀ l', (directoryDiscipline cfg).Inv l'.db → Enters cfg claims.subject user.id l' →
      ((saveIdentityEmail identity.id claims.email).when (identity.providerEmail ≠ claims.email)).wp (directoryDiscipline cfg)
        (fun _ => (SessionService.createWithManager cfg { user with email := claims.email }).wp (directoryDiscipline cfg)
          fun x => (directoryDiscipline cfg).Ensures (DirectoryEffect cfg (.login claims)) (.session x)) l' :=
    fun l' hinv' hl' => Txn.wp_of_still (.when _ (still_saveIdentityEmail _ _)) hinv' fun _ l'' hl'' => wp_enter (hl'.calm hl'')
  rw [AuthService.updateReturningIdentity, Txn.wp_bind, Txn.wp_require]
  intro _
  rw [Txn.wp_bind, Txn.wp_when]
  refine ⟨fun _ => ?_, fun _ => ?_⟩
  · rw [Txn.wp_bind, findShared, Txn.wp_locking]
    intro db hr
    rw [Txn.wp_bind, Txn.wp_require]
    intro _
    refine wp_saveUserEmail_addressing hpend fun l' hl' => ?_
    rw [Txn.wp_bind]
    refine hsession l' hl'.rely.1 fun db' hr' => ⟨hl'.change db' hr', ?_⟩
    obtain ⟨x, hx, hlink⟩ := hlinked db' ((hr.trans hl'.rely Set.subset_union_left).trans hr' (Set.subset_union_left.trans hl'.held))
    exact ⟨x, hl'.links db' ▸ hx, hlink⟩
  · rw [Txn.wp_bind]
    refine hsession l hinv fun db hr => ?_
    rw [hpend db]
    exact ⟨.refl hr.1, hlinked db hr⟩

theorem login_directory (claims : GoogleIdentityClaims) : DirectoryPromises cfg (.login claims) := by
  intro db₀ hinv
  rw [AuthCall.run, Txn.wp_bind, AuthService.resolveIdentityAndCreateSession, Txn.wp_bind, findLocked]
  refine Txn.wp_locking_find (fun db hr _ => ?_) fun db hr identity hidentity hfound => ?_
  · rw [Txn.wp_bind, findShared, Txn.wp_locking]
    intro db' hr'
    rw [Txn.wp_bind, Txn.wp_require]
    intro _
    rw [Txn.wp_bind]
    refine wp_insertUser_addressing (fun _ => rfl) fun x l' hl' => ?_
    rw [Txn.wp_bind]
    refine wp_insertIdentity_enters hl' (fun _ => ⟨rfl, rfl, rfl⟩) fun _ l'' hl'' => ?_
    exact wp_enter hl''
  · rw [Bool.and_eq_true, decide_eq_true_eq, decide_eq_true_eq] at hfound
    rw [Txn.wp_bind, findLocked]
    refine Txn.wp_locking_find (fun _ _ _ => ?_) fun db' hr' user _ huser => ?_
    · rw [Txn.wp_bind, Txn.wp_orThrow]
      exact fun _ h => nomatch h
    · rw [Txn.wp_bind, Txn.wp_orThrow]
      rintro _ ⟨⟩
      refine wp_updateReturningIdentity_enters hr'.1 (fun _ => rfl) ?_ (.inl (.inr rfl)) hfound.1 hfound.2 (of_decide_eq_true huser).symm
      exact hr'.2 (.identity identity.id) (.inr rfl) _ (List.mem_map_of_mem hidentity) rfl

end Logins

/-! ### The other calls -/

section Others

variable {cfg : AuthConfig}

/-- A call whose program is still takes no link back. -/
theorem directory_of_still {i : AuthCall} (hlogin : ∀ claims, i ≠ .login claims) (hstill : (i.run cfg).Still (AuthDb.directory cfg)) :
    DirectoryPromises cfg i := by
  intro db₀ hinv
  refine Txn.wp_of_still hstill hinv fun a l hl db hr => ?_
  have hsame : (l.pend db).directory cfg = db.directory cfg := hl.pend db
  refine ⟨?_, fun k _ => ?_, ?_, fun claims _ hi _ => absurd hi (hlogin claims)⟩
  · show Directory.Inv ((l.pend db).directory cfg)
    rw [hsame]
    exact hr.1
  · show Directory.Keeps k (db.directory cfg) ((l.pend db).directory cfg)
    rw [hsame]
    exact .refl k _
  · rw [hsame]
    exact fun _ hx => hx

theorem still_findManyLocked {ρ κ : Type} {table : AuthDb → List ρ} {rowId : ρ → κ} {order : ScanOrder κ} {row : κ → AuthDb → Option ρ}
    {key : κ → AuthKey} : (findManyLocked table rowId order row key).Still (AuthDb.directory cfg) := by
  have heach : ∀ ids, (lockEach row key ids).Still (AuthDb.directory cfg) := by
    intro ids
    induction ids with
    | nil => exact .pure _
    | cons id ids ih => exact .bind (.locking _ _) fun _ => .bind ih fun _ => .pure _
  exact .bind (.locking _ _) fun _ => heach _

/-- Columns other than the address change. -/
theorem still_saveUser {id : ℕ} {columns : User → User} (h : ∀ u : User, (columns u).id = u.id ∧ (columns u).email = u.email) :
    (saveUser id columns).Still (AuthDb.directory cfg) := by
  refine .bind (.reading _) fun _ => .bind (.writing fun _ db => ?_) fun _ => .pure ()
  have haddresses : (Table.update db.users (·.id = id) columns).map (addressOf cfg) = db.users.map (addressOf cfg) :=
    Table.map_update fun u _ _ => by rw [addressOf, (h u).1, (h u).2, addressOf]
  simp [AuthDb.directory, haddresses]

theorem still_createWithManager (user : User) : (SessionService.createWithManager cfg user).Still (AuthDb.directory cfg) :=
  .bind (.require _ _) fun _ => .bind (.writing fun _ _ => rfl) fun _ => .pure _

theorem still_saveRevoked (ids : List String) : (saveRevoked ids).Still (AuthDb.directory cfg) := .writing fun _ _ => rfl

theorem still_createSession (userId : ℕ) : (AuthCall.run cfg (.createSession userId)).Still (AuthDb.directory cfg) := by
  refine .bind (.bind (.locking _ _) fun _ => .bind (.orThrow _ _) fun user => ?_) fun _ => .pure _
  exact still_createWithManager user

theorem still_refresh (rawToken : Option String) (now : ℕ) : (AuthCall.run cfg (.refresh rawToken now)).Still (AuthDb.directory cfg) := by
  refine .bind (.bind (.orThrow _ _) fun token => .bind (.orThrow _ _) fun sessionId => .bind (.locking _ _) fun found => ?_) fun _ => .pure _
  split
  · exact .pure _
  · refine .bind (.locking _ _) fun owner => ?_
    split
    · exact .pure _
    · split
      · exact .pure _
      · split
        · exact .bind (still_saveRevoked _) fun _ => .pure _
        · split
          · exact .bind (still_saveRevoked _) fun _ => .pure _
          · exact .bind (.writing fun _ _ => rfl) fun _ => .pure _

theorem still_revoke (sessionId : String) : (AuthCall.run cfg (.revoke sessionId)).Still (AuthDb.directory cfg) := by
  refine .bind (.bind (.locking _ _) fun found => ?_) fun _ => .pure _
  split
  · exact .pure _
  · split
    · exact .pure _
    · exact .bind (still_saveRevoked _) fun _ => .pure _

theorem still_updateStatus (input : UsersService.UpdateStatusInput) (admins : ScanOrder ℕ) (order : ScanOrder String) :
    (AuthCall.run cfg (.updateStatus input admins order)).Still (AuthDb.directory cfg) := by
  refine .bind (.bind (.locking _ _) fun _ => .bind (.orThrow _ _) fun target => ?_) fun _ => .pure _
  split
  · exact .pure _
  · have hallowed : (UsersService.assertDeactivationAllowed input.actorUserId target admins).Still (AuthDb.directory cfg) :=
      .bind (.require _ _) fun _ => .when _ (.bind still_findManyLocked fun _ => .require _ _)
    have hrevoked : (UsersService.revokeSessions target.id order).Still (AuthDb.directory cfg) :=
      .bind still_findManyLocked fun _ => .bind (.when _ (.bind (still_saveRevoked _) fun _ => .pure _)) fun _ => .pure _
    refine .bind (.when _ hallowed) fun _ => .bind (still_saveUser fun _ => ⟨rfl, rfl⟩) fun _ => .bind (.writing fun _ _ => rfl) fun _ => ?_
    split
    · exact .bind hrevoked fun _ => .pure _
    · exact .pure _

theorem still_promote (input : AdminBootstrapService.PromoteInput) : (AuthCall.run cfg (.promote input)).Still (AuthDb.directory cfg) := by
  refine .bind (.bind (.require _ _) fun _ => .bind (.require _ _) fun _ => .bind (.locking _ _) fun _ => .bind (.orThrow _ _) fun user =>
    .bind (.require _ _) fun _ => .bind (.require _ _) fun _ => ?_) fun _ => .pure _
  split
  · exact .pure _
  · exact .bind (still_saveUser fun _ => ⟨rfl, rfl⟩) fun _ => .bind (.writing fun _ _ => rfl) fun _ => .pure _

/-- Every call leaves the links where they are, and a login that answers has linked its subject. -/
theorem directory_promises (cfg : AuthConfig) (i : AuthCall) : DirectoryPromises cfg i := by
  cases i with
  | login claims => exact login_directory claims
  | createSession userId => exact directory_of_still (fun _ h => nomatch h) (still_createSession userId)
  | refresh rawToken now => exact directory_of_still (fun _ h => nomatch h) (still_refresh rawToken now)
  | revoke sessionId => exact directory_of_still (fun _ h => nomatch h) (still_revoke sessionId)
  | updateStatus input admins order => exact directory_of_still (fun _ h => nomatch h) (still_updateStatus input admins order)
  | promote input => exact directory_of_still (fun _ h => nomatch h) (still_promote input)

end Others

end HotelBackend.Auth
