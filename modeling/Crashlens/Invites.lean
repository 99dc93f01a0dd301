import Crashlens.Library.Discipline
import Crashlens.PyValue

/-!
# Invitations

`accept_invite` as a transaction over the tables it touches. The invite is looked up and judged
first, by reads that lock nothing; the membership, the acceptance of the invite and the audit row
are written later. The `UPDATE` that accepts the invite changes no row when another call has
accepted it meanwhile, and nobody looks at how many rows it changed.
-/

namespace Crashlens.Invites

open Transactional

def passwordMinLength : ℕ := 10

def commonPasswords : List String :=
  ["123456", "123456789", "12345678", "1234567890", "1234567", "password", "password1",
  "password123", "passw0rd", "password12", "qwerty", "qwerty123", "qwertyuiop", "qwerty1",
  "1q2w3e4r", "1qaz2wsx", "zaq12wsx", "qazwsx", "qwe123", "123qwe", "111111", "1111111",
  "11111111", "000000", "0000000", "123123", "123321", "112233", "121212", "101010", "abc123",
  "abcd1234", "abc12345", "a1b2c3d4", "aa123456", "iloveyou", "iloveyou1", "sunshine",
  "princess", "football", "football1", "baseball", "welcome", "welcome1", "welcome123",
  "admin", "admin123", "administrator", "root", "toor", "letmein", "letmein1", "login",
  "monkey", "monkey123", "dragon", "dragon123", "master", "master123", "superman", "batman",
  "trustno1", "whatever", "shadow", "michael", "jennifer", "jordan23", "hunter2", "starwars",
  "computer", "internet", "samsung", "google", "chocolate", "cheese", "asdfghjkl", "asdfghjk",
  "asdf1234", "zxcvbnm", "qwertzuiop", "123456a", "123456789a", "a123456789", "test1234",
  "test123456", "changeme", "changeme123", "default", "secret", "secret123", "passer2009",
  "michael1", "charlie", "freedom", "ninja1234", "harley", "ranger", "buster", "soccer",
  "hockey", "killer", "george", "sexy", "andrew", "thomas", "robert", "daniel", "matthew",
  "jessica", "loveme", "password!", "p@ssw0rd", "p@ssword", "qwerty12345", "1234512345"]

structure Invite where
  id : ℕ
  orgId : ℕ
  email : String
  role : String
  tokenHash : String
  expiresAt : Timestamp
  acceptedAt : Option Timestamp
deriving DecidableEq

structure User where
  id : ℕ
  email : String
  passwordHash : String
deriving DecidableEq

structure Membership where
  orgId : ℕ
  userId : ℕ
  role : String
deriving DecidableEq

structure AuditRow where
  orgId : ℕ
  actorUserId : ℕ
  action : String
  targetType : String
  targetId : ℕ
  email : String
  role : String
deriving DecidableEq

structure Db where
  invites : List Invite
  users : List User
  memberships : List Membership
  audit : List AuditRow

/-- What an open call has written. -/
structure WriteSet where
  user : Option User
  membership : Option Membership
  accepted : Option (ℕ × Timestamp)
  audit : Option AuditRow

def WriteSet.empty : WriteSet := ⟨none, none, none, none⟩

/-- `SET accepted_at = :now WHERE id = :id AND accepted_at IS NULL`, on one row. -/
def Invite.accept (inviteId : ℕ) (now : Timestamp) (inv : Invite) : Invite :=
  if inv.id = inviteId ∧ inv.acceptedAt = none then { inv with acceptedAt := some now } else inv

def WriteSet.apply (w : WriteSet) (db : Db) : Db where
  invites :=
    match w.accepted with
    | some (inviteId, now) => db.invites.map (Invite.accept inviteId now)
    | none => db.invites
  users := db.users ++ w.user.toList
  memberships := db.memberships ++ w.membership.toList
  audit := db.audit ++ w.audit.toList

inductive Request where
  | inviteByHash (tokenHash : String)
  | userByEmail (email : String)
  | insertUser (user : User)
  | insertMembership (membership : Membership)
  | acceptInvite (inviteId : ℕ) (now : Timestamp)
  | insertAudit (row : AuditRow)
deriving DecidableEq

/-- An `UPDATE` answers with its row count. -/
@[reducible] def Response : Request → Type
  | .inviteByHash _ => Option Invite
  | .userByEmail _ => Option User
  | .insertUser _ => Unit
  | .insertMembership _ => Unit
  | .acceptInvite _ _ => ℕ
  | .insertAudit _ => Unit

inductive InviteError where
  | multipleResults
  | integrityError
  | passwordPolicy (message : String)

def isOpen (invites : List Invite) (inviteId : ℕ) : Bool :=
  invites.any fun inv => inv.id = inviteId && inv.acceptedAt.isNone

/-- `one_or_none` of the invites with this hash. -/
def byHash (invites : List Invite) (tokenHash : String) : Except InviteError (Option Invite) :=
  match invites.filter fun inv => inv.tokenHash = tokenHash with
  | [] => .ok none
  | [inv] => .ok (some inv)
  | _ => .error .multipleResults

def exec (_ : Unit) (snapshot committed : Db) (w : WriteSet) :
    (q : Request) → Except InviteError (Response q × WriteSet × Db)
  | .inviteByHash tokenHash =>
    match byHash (w.apply snapshot).invites tokenHash with
    | .ok invite => .ok (invite, w, committed)
    | .error e => .error e
  | .userByEmail email =>
    .ok ((w.apply snapshot).users.find? fun u => u.email = email, w, committed)
  | .insertUser user =>
    if (w.apply committed).users.any fun u => u.id = user.id || u.email = user.email then
      .error .integrityError
    else .ok ((), { w with user := some user }, committed)
  | .insertMembership m =>
    if (w.apply committed).memberships.any fun m' => m'.orgId = m.orgId && m'.userId = m.userId then
      .ok ((), w, committed)
    else .ok ((), { w with membership := some m }, committed)
  | .acceptInvite inviteId now =>
    let rowcount := (w.apply committed).invites.countP fun inv =>
      inv.id = inviteId && inv.acceptedAt.isNone
    .ok (rowcount, if 0 < rowcount then { w with accepted := some (inviteId, now) } else w,
      committed)
  | .insertAudit row => .ok ((), { w with audit := some row }, committed)

/-- A row another transaction has inserted under the same key, or updated, is waited for. -/
def blocks (w : WriteSet) : Request → Bool
  | .insertUser user => w.user.any fun u => u.id = user.id || u.email = user.email
  | .insertMembership m =>
    w.membership.any fun m' => m'.orgId = m.orgId && m'.userId = m.userId
  | .acceptInvite inviteId _ => w.accepted.any fun a => a.1 = inviteId
  | _ => false

def store : Store Unit Db WriteSet InviteError Request Response where
  noWrites := .empty
  merge := WriteSet.apply
  exec := exec
  blocks := blocks

/-! ## The call -/

/-- Hashes, and `str.lower`. -/
structure Security where
  hashInviteToken : String → String
  hashPassword : String → String
  verifyPassword : String → String → Bool
  lower : String → String

section Call

variable (sec : Security)

def validatePassword (password : String) : Option String :=
  if password.length < passwordMinLength then
    some "Password must be at least 10 characters long."
  else if sec.lower password ∈ commonPasswords then
    some "Password is too common; choose something less guessable."
  else none

/-- The arguments of one call, its clock, and the uuid it draws if it creates a user. -/
structure AcceptCall where
  email : String
  password : String
  now : Timestamp
  newUserId : ℕ

structure Accepted where
  userId : ℕ
  email : String
  orgId : ℕ
  role : String
deriving DecidableEq

abbrev InviteTx (α : Type) := Program Request Response InviteError α

def execute (q : Request) : InviteTx (Response q) := Program.request q

def insertNewUser : Option User → InviteTx Unit
  | some user => execute (.insertUser user)
  | none => .pure ()

/-- The writes of `accept_invite`, in one transaction. -/
def grant (invite : Invite) (call : AcceptCall) (userId : ℕ) (newUser : Option User) :
    InviteTx (Option Accepted) := do
  insertNewUser newUser
  execute (.insertMembership ⟨invite.orgId, userId, invite.role⟩)
  let _ ← execute (.acceptInvite invite.id call.now)
  execute (.insertAudit
    ⟨invite.orgId, userId, "invite.accepted", "invite", invite.id, call.email, invite.role⟩)
  return some ⟨userId, call.email, invite.orgId, invite.role⟩

def acceptInvite (token : String) (call : AcceptCall) : InviteTx (Option Accepted) := do
  match ← execute (.inviteByHash (sec.hashInviteToken token)) with
  | none => .pure none
  | some invite =>
    if invite.acceptedAt.isSome || invite.expiresAt ≤ call.now then .pure none
    else if sec.lower invite.email ≠ sec.lower call.email then .pure none
    else
      match ← execute (.userByEmail call.email) with
      | some user =>
        if sec.verifyPassword user.passwordHash call.password then
          grant invite call user.id none
        else .pure none
      | none =>
        match validatePassword sec call.password with
        | some message => .raise (.passwordPolicy message)
        | none =>
          let user : User := ⟨call.newUserId, call.email, sec.hashPassword call.password⟩
          grant invite call call.newUserId (some user)

end Call

abbrev InviteWorld (ι : Type) :=
  World ι Unit Db WriteSet InviteError Request Response (Option Accepted)

/-- Every call is about to begin, all with the same token. -/
def startCalls {ι : Type} (sec : Security) (token : String) (calls : ι → AcceptCall) (db : Db) :
    InviteWorld ι :=
  World.start store (fun i => acceptInvite sec token (calls i)) (fun _ => ()) db

section Outcome

variable {ι : Type} [Fintype ι] [DecidableEq ι]

abbrev InviteTxn := Txn Unit Db WriteSet InviteError Request Response (Option Accepted)

def succeeded : InviteTxn → ℕ
  | .committed (some _) _ => 1
  | _ => 0

/-- How many calls have returned an acceptance. -/
def successes (w : InviteWorld ι) : ℕ := w.total succeeded

/-- The `invite.accepted` rows of the invite. -/
def acceptances (db : Db) (inviteId : ℕ) : ℕ :=
  db.audit.countP fun row => row.action = "invite.accepted" && row.targetId = inviteId

/-- At most one call has succeeded, and at most one audit row has been written for any invite. -/
structure AcceptedOnce (start : Db) (w : InviteWorld ι) : Prop where
  calls : successes w ≤ 1
  audit : ∀ inviteId, acceptances w.committed inviteId ≤ acceptances start inviteId + 1

/-- The `UPDATE` of this session changed the invite. -/
def Claimed (s : Session Unit WriteSet Request Response) : Prop := s.writes.accepted.isSome = true

def InviteTxn.Claims : InviteTxn → Prop
  | .running (.pure (some _)) s _ => Claimed s
  | _ => True

/-- A call that commits its writes has found the invite still open when its `UPDATE` ran. -/
def CommitsClaimed (w : InviteWorld ι) : Action ι → Prop
  | .run i => InviteTxn.Claims (w.txns i)
  | .fail _ => True

instance (t : InviteTxn) : Decidable (InviteTxn.Claims t) :=
  match t with
  | .running (.pure (some _)) s _ => inferInstanceAs (Decidable (s.writes.accepted.isSome = true))
  | .running (.pure none) _ _ | .running (.raise _) _ _ | .running (.call _ _) _ _
  | .committed _ _ | .aborted _ => .isTrue trivial

instance (w : InviteWorld ι) (act : Action ι) : Decidable (CommitsClaimed w act) :=
  match act with
  | .run i => inferInstanceAs (Decidable (InviteTxn.Claims (w.txns i)))
  | .fail _ => .isTrue trivial

end Outcome

/-! ## The invite row -/

section Rows

variable {invites start : List Invite} {inviteId y : ℕ} {now : Timestamp}

/-- The row without its acceptance. -/
def Invite.static (inv : Invite) : Invite := { inv with acceptedAt := none }

theorem accept_static (inv : Invite) : (inv.accept y now).static = inv.static := by
  unfold Invite.accept
  split <;> rfl

theorem isOpen_iff : isOpen invites inviteId = true ↔
    ∃ inv ∈ invites, inv.id = inviteId ∧ inv.acceptedAt = none := by
  simp [isOpen]

/-- Accepting an invite closes its rows and touches no other. -/
theorem isOpen_accept : isOpen (invites.map (Invite.accept y now)) inviteId = true ↔
    isOpen invites inviteId = true ∧ inviteId ≠ y := by
  rw [isOpen_iff, isOpen_iff]
  constructor
  · rintro ⟨inv', hmem, hid, hnone⟩
    obtain ⟨inv, hinv, rfl⟩ := List.mem_map.mp hmem
    unfold Invite.accept at hid hnone
    by_cases hy : inv.id = y ∧ inv.acceptedAt = none
    · rw [if_pos hy] at hnone
      cases hnone
    · rw [if_neg hy] at hid hnone
      exact ⟨⟨inv, hinv, hid, hnone⟩, fun he => hy ⟨hid.trans he, hnone⟩⟩
  · rintro ⟨⟨inv, hinv, hid, hnone⟩, hne⟩
    have hsame : inv.accept y now = inv := if_neg fun h => hne (hid.symm.trans h.1)
    exact ⟨inv, hsame ▸ List.mem_map_of_mem hinv, hid, hnone⟩

/-- A look-up by hash finds the same invite in every version of the table. -/
theorem byHash_static {h : String} {inv : Invite}
    (hstatic : invites.map Invite.static = start.map Invite.static)
    (hfound : byHash invites h = .ok (some inv)) :
    inv ∈ invites ∧ ∃ inv₀, byHash start h = .ok (some inv₀) ∧ inv₀.id = inv.id := by
  have hfilter (l : List Invite) : (l.filter fun inv => inv.tokenHash = h).map Invite.static =
      (l.map Invite.static).filter fun inv => inv.tokenHash = h := by
    rw [List.filter_map]
    rfl
  have hsame := (hfilter invites).trans ((congrArg _ hstatic).trans (hfilter start).symm)
  unfold byHash at hfound ⊢
  split at hfound
  · cases hfound
  · next inv' hinv =>
      cases hfound
      have hmem : inv ∈ invites.filter fun inv => inv.tokenHash = h := by rw [hinv]; simp
      refine ⟨(List.mem_filter.mp hmem).1, ?_⟩
      rw [hinv, List.map_singleton] at hsame
      obtain ⟨inv₀, hinv₀, hstatic₀⟩ := List.map_eq_singleton_iff.mp hsame.symm
      refine ⟨inv₀, by rw [hinv₀], ?_⟩
      have hid := congrArg Invite.id hstatic₀
      exact hid
  · cases hfound

/-- The invite the token stands for. -/
def target (start : Db) (tokenHash : String) : Option ℕ :=
  match byHash start.invites tokenHash with
  | .ok (some inv) => some inv.id
  | _ => none

end Rows

/-! ## The locking discipline -/

section Locks

abbrev CallSession := Session Unit WriteSet Request Response

variable {start c c' snap : Db} {s t : CallSession} {q : Request}

/-- Invites only lose their being open. -/
structure Valid (start c : Db) : Prop where
  static : c.invites.map Invite.static = start.invites.map Invite.static
  opens : ∀ inviteId, isOpen c.invites inviteId = true → isOpen start.invites inviteId = true

def Answered (s : CallSession) (q : Request) (r : Response q) : Prop := ⟨q, r⟩ ∈ s.log

theorem answered_after {q q' : Request} {r : Response q} {r' : Response q'} {d : WriteSet} :
    Answered (s.after q' r' d) q r ↔
      Answered s q r ∨ (⟨q, r⟩ : (q : Request) × Response q) = ⟨q', r'⟩ := by
  simp [Answered]

/-- An open call against the invites committed by now. -/
structure Fits (start : Db) (s : CallSession) (c : Db) : Prop where
  accepted : ∀ inviteId now, s.writes.accepted = some (inviteId, now) →
    isOpen c.invites inviteId = true
  missed : ∀ inviteId now, Answered s (.acceptInvite inviteId now) (0 : ℕ) →
    isOpen c.invites inviteId = false
  saw : ∀ h inv, Answered s (.inviteByHash h) (some inv) → inv.acceptedAt = none →
    target start h = some inv.id ∧ isOpen start.invites inv.id = true

/-- Only one open call has accepted an invite. -/
def Apart (w w' : WriteSet) : Prop :=
  ∀ a a', w.accepted = some a → w'.accepted = some a' → a.1 ≠ a'.1

/-- A call updates the invite once. -/
def Pre : Request → CallSession → Prop
  | .acceptInvite _ _, s => s.writes.accepted = none
  | _, _ => True

theorem Valid.apply (h : Valid start c) (w : WriteSet) : Valid start (w.apply c) := by
  unfold WriteSet.apply
  cases w.accepted with
  | none => exact ⟨h.static, h.opens⟩
  | some a =>
      refine ⟨?_, fun inviteId hopen => h.opens inviteId (isOpen_accept.mp hopen).1⟩
      have hstatic : Invite.static ∘ Invite.accept a.1 a.2 = Invite.static :=
        funext fun inv => accept_static inv
      simp only [List.map_map, hstatic]
      exact h.static

theorem isOpen_apply {w : WriteSet} {inviteId : ℕ} :
    isOpen (w.apply c).invites inviteId = true ↔ isOpen c.invites inviteId = true ∧
      ∀ a, w.accepted = some a → inviteId ≠ a.1 := by
  unfold WriteSet.apply
  cases w.accepted with
  | none => simp
  | some a => simp only [isOpen_accept, Option.some.injEq, forall_eq']

/-- Everything a statement can do to its session. No statement changes the committed tables. -/
theorem executes_cases (h : store.Executes s snap c q t c') : c' = c ∧
    ((∃ r, (∀ inviteId now, q ≠ .acceptInvite inviteId now) ∧
        (∀ h inv, (⟨q, r⟩ : (q : Request) × Response q) = ⟨.inviteByHash h, some inv⟩ →
          byHash (s.writes.apply snap).invites h = .ok (some inv)) ∧
        ∃ d, d.accepted = s.writes.accepted ∧ t = s.after q r d) ∨
      ∃ inviteId now n, q = .acceptInvite inviteId now ∧
        n = (s.writes.apply c).invites.countP (fun inv =>
          inv.id = inviteId && inv.acceptedAt.isNone) ∧
        t = s.after (.acceptInvite inviteId now) n
          (if 0 < n then { s.writes with accepted := some (inviteId, now) } else s.writes)) := by
  obtain ⟨r, d, he, rfl⟩ := h
  cases q with
  | inviteByHash h =>
      simp only [store, exec] at he
      split at he
      · next invite hfound =>
          cases he
          refine ⟨rfl, .inl ⟨_, by simp, fun h' inv heq => ?_, _, rfl, rfl⟩⟩
          cases heq
          exact hfound
      · cases he
  | userByEmail email =>
      cases he
      exact ⟨rfl, .inl ⟨_, by simp, by simp, _, rfl, rfl⟩⟩
  | insertUser user =>
      simp only [store, exec] at he
      split at he
      · cases he
      · cases he
        exact ⟨rfl, .inl ⟨(), by simp, by simp, { s.writes with user := some user }, rfl, rfl⟩⟩
  | insertMembership m =>
      simp only [store, exec] at he
      split at he
      · cases he
        exact ⟨rfl, .inl ⟨_, by simp, by simp, _, rfl, rfl⟩⟩
      · cases he
        exact ⟨rfl, .inl ⟨(), by simp, by simp, { s.writes with membership := some m }, rfl, rfl⟩⟩
  | acceptInvite inviteId now =>
      cases he
      exact ⟨rfl, .inr ⟨inviteId, now, _, rfl, rfl, rfl⟩⟩
  | insertAudit row =>
      cases he
      exact ⟨rfl, .inl ⟨(), by simp, by simp, { s.writes with audit := some row }, rfl, rfl⟩⟩

theorem executes_fits (h : store.Executes s snap c q t c') (hpre : Pre q s)
    (hsnap : Valid start snap) (hs : Fits start s c) : Fits start t c := by
  obtain ⟨-, ⟨r, hq, hlook, d, hd, rfl⟩ | ⟨inviteId, now, n, rfl, hn, rfl⟩⟩ := executes_cases h
  · refine ⟨fun y t' ht => hs.accepted y t' (hd ▸ ht), fun y t' ht => ?_, fun h' inv ht hopen => ?_⟩
    · rcases answered_after.mp ht with ht | ht
      · exact hs.missed y t' ht
      · exact absurd (congrArg Sigma.fst ht).symm (hq y t')
    · rcases answered_after.mp ht with ht | ht
      · exact hs.saw h' inv ht hopen
      · have hvalid := hsnap.apply s.writes
        obtain ⟨hmem, inv₀, hstart, hid⟩ := byHash_static hvalid.static (hlook h' inv ht.symm)
        refine ⟨by simp only [target, hstart, hid], hvalid.opens _ ?_⟩
        exact isOpen_iff.mpr ⟨inv, hmem, rfl, hopen⟩
  · have hnone : s.writes.accepted = none := hpre
    have hview : (s.writes.apply c).invites = c.invites := by simp only [WriteSet.apply, hnone]
    rw [hview] at hn
    refine ⟨fun y t' ht => ?_, fun y t' ht => ?_, fun h' inv ht hopen => ?_⟩
    · by_cases hpos : 0 < n
      · simp only [Session.after_writes, if_pos hpos, Option.some.injEq, Prod.mk.injEq] at ht
        rw [hn, List.countP_pos_iff] at hpos
        obtain ⟨inv, hmem, hinv⟩ := hpos
        simp only [Bool.and_eq_true, decide_eq_true_eq, Option.isNone_iff_eq_none] at hinv
        exact isOpen_iff.mpr ⟨inv, hmem, hinv.1.trans ht.1, hinv.2⟩
      · simp only [Session.after_writes, if_neg hpos, hnone] at ht
        cases ht
    · rcases answered_after.mp ht with ht | ht
      · exact hs.missed y t' ht
      · cases ht
        rw [← Bool.not_eq_true, isOpen_iff]
        rintro ⟨inv, hmem, hid, hopen⟩
        have hzero := List.countP_eq_zero.mp hn.symm inv hmem
        simp [hid, hopen] at hzero
    · rcases answered_after.mp ht with ht | ht
      · exact hs.saw h' inv ht hopen
      · cases ht

theorem executes_apart (h : store.Executes s snap c q t c') {w : WriteSet}
    (hfree : blocks w q = false) (hapart : Apart s.writes w) : Apart t.writes w := by
  obtain ⟨-, ⟨r, -, -, d, hd, rfl⟩ | ⟨inviteId, now, n, rfl, -, rfl⟩⟩ := executes_cases h
  · exact fun a a' ha ha' => hapart a a' (hd ▸ ha) ha'
  · intro a a' ha ha'
    by_cases hpos : 0 < n
    · simp only [Session.after_writes, if_pos hpos, Option.some.injEq] at ha
      subst ha
      have hne : a'.1 ≠ inviteId := by simpa [blocks, ha'] using hfree
      exact hne.symm
    · simp only [Session.after_writes, if_neg hpos] at ha
      exact hapart a a' ha ha'

end Locks

/-! ## What a call leaves behind -/

section Spec

variable {s s' : CallSession} {h : String} {invite : Invite} {call : AcceptCall}

/-- A successful call looked at an open invite, wrote its audit row, and updated the invite or
missed it. -/
structure Granted (h : String) (s : CallSession) (inviteId : ℕ) : Prop where
  looked : ∃ inv, Answered s (.inviteByHash h) (some inv) ∧ inv.acceptedAt = none ∧
    inv.id = inviteId
  updated : (∃ now, s.writes.accepted = some (inviteId, now)) ∨
    s.writes.accepted = none ∧ ∃ now, Answered s (.acceptInvite inviteId now) (0 : ℕ)
  audit : ∃ row, s.writes.audit = some row ∧ row.action = "invite.accepted" ∧
    row.targetId = inviteId

def Post (h : String) : Option Accepted → CallSession → Prop
  | some _, s => ∃ inviteId, Granted h s inviteId
  | none, s => s.writes.audit = none ∧ s.writes.accepted = none

/-- Later sessions of the same call that have not updated an invite since. -/
structure Extends (s s' : CallSession) : Prop where
  accepted : s'.writes.accepted = s.writes.accepted
  answered : ∀ (q : Request) (r : Response q), Answered s q r → Answered s' q r

theorem extends_after {q : Request} {r : Response q} {d : WriteSet}
    (hd : d.accepted = s.writes.accepted) : Extends s (s.after q r d) :=
  ⟨hd, fun _ _ hs => answered_after.mpr (.inl hs)⟩

theorem answers_extends {q : Request} {r : Response q}
    (hq : ∀ inviteId now, q ≠ .acceptInvite inviteId now) (ha : store.Answers q s r s') :
    Extends s s' := by
  obtain ⟨snap, c, d, c', he, rfl⟩ := ha
  obtain ⟨-, ⟨r', -, -, d', hd', heq⟩ | ⟨inviteId, now, -, heq, -⟩⟩ :=
    executes_cases ⟨r, d, he, rfl⟩
  · refine extends_after ?_
    have hwrites := congrArg Session.writes heq
    simp only [Session.after_writes] at hwrites
    rw [hwrites, hd']
  · exact absurd heq (hq inviteId now)

theorem answers_read {q : Request} {r : Response q}
    (hq : (∃ h, q = .inviteByHash h) ∨ ∃ email, q = .userByEmail email)
    (ha : store.Answers q s r s') : s' = s.after q r s.writes := by
  obtain ⟨snap, c, d, c', he, rfl⟩ := ha
  rcases hq with ⟨h, rfl⟩ | ⟨email, rfl⟩
  · simp only [store, exec] at he
    split at he
    · cases he
      rfl
    · cases he
  · cases he
    rfl

theorem answers_acceptInvite {inviteId : ℕ} {now : Timestamp} {n : ℕ}
    (ha : store.Answers (.acceptInvite inviteId now) s n s') :
    s' = s.after (.acceptInvite inviteId now) n
      (if 0 < n then { s.writes with accepted := some (inviteId, now) } else s.writes) := by
  obtain ⟨snap, c, d, c', he, rfl⟩ := ha
  cases he
  rfl

theorem answers_insertAudit {row : AuditRow} {r : Unit}
    (ha : store.Answers (.insertAudit row) s r s') :
    s' = s.after (.insertAudit row) () { s.writes with audit := some row } := by
  obtain ⟨snap, c, d, c', he, rfl⟩ := ha
  cases he
  rfl

theorem insertNewUser_spec (newUser : Option User) :
    (insertNewUser newUser).wp store.Answers Pre (fun _ s' => Extends s s') s := by
  cases newUser with
  | none => exact ⟨rfl, fun _ _ hs => hs⟩
  | some user => exact ⟨trivial, fun _ s' ha => answers_extends (by simp) ha⟩

theorem grant_spec (hlooked : Answered s (.inviteByHash h) (some invite))
    (hopen : invite.acceptedAt = none) (hnone : s.writes.accepted = none) (userId : ℕ)
    (newUser : Option User) :
    (grant invite call userId newUser).wp store.Answers Pre (Post h) s := by
  rw [grant, Program.bind_eq, Program.wp_bind]
  refine Program.wp_mono (fun _ s₁ h₁ => ?_) (insertNewUser_spec newUser)
  refine ⟨trivial, fun _ s₂ ha₂ => ?_⟩
  have h₂ := answers_extends (by simp) ha₂
  have hnone₂ : s₂.writes.accepted = none := h₂.accepted.trans (h₁.accepted.trans hnone)
  refine ⟨hnone₂, fun (n : ℕ) s₃ ha₃ => ⟨trivial, fun _ s₄ ha₄ => ?_⟩⟩
  have hs₃ := answers_acceptInvite ha₃
  have hs₄ := answers_insertAudit ha₄
  have h₄ := answers_extends (by simp) ha₄
  have hlooked₃ : Answered s₃ (.inviteByHash h) (some invite) := by
    rw [hs₃]
    exact answered_after.mpr (.inl (h₂.answered _ _ (h₁.answered _ _ hlooked)))
  refine ⟨invite.id, ⟨invite, h₄.answered _ _ hlooked₃, hopen, rfl⟩, ?_, ⟨⟨invite.orgId, userId,
    "invite.accepted", "invite", invite.id, call.email, invite.role⟩, ?_, rfl, rfl⟩⟩
  · rw [h₄.accepted, hs₃]
    by_cases hpos : 0 < n
    · rw [if_pos hpos]
      exact .inl ⟨call.now, rfl⟩
    · rw [if_neg hpos]
      obtain rfl : n = 0 := by omega
      refine .inr ⟨hnone₂, call.now, h₄.answered _ _ ?_⟩
      rw [hs₃]
      exact answered_after.mpr (.inr rfl)
  · rw [hs₄]
    rfl

theorem acceptInvite_spec (sec : Security) (token : String) (call : AcceptCall)
    (hnone : s.writes = .empty) :
    (acceptInvite sec token call).wp store.Answers Pre (Post (sec.hashInviteToken token)) s := by
  refine ⟨trivial, fun found s₁ ha₁ => ?_⟩
  have hs₁ := answers_read (.inl ⟨_, rfl⟩) ha₁
  have hwrites₁ : s₁.writes = .empty := by rw [hs₁]; exact hnone
  have hend (s₂ : CallSession) (h₂ : s₂.writes = .empty) :
      s₂.writes.audit = none ∧ s₂.writes.accepted = none := by simp [h₂, WriteSet.empty]
  cases found with
  | none => exact hend s₁ hwrites₁
  | some invite =>
      simp only [Program.pure_bind]
      by_cases hstale : (invite.acceptedAt.isSome || invite.expiresAt ≤ call.now) = true
      · rw [if_pos hstale]
        exact hend s₁ hwrites₁
      · rw [if_neg hstale]
        have hopen : invite.acceptedAt = none := by
          simp only [Bool.or_eq_true, not_or, Bool.not_eq_true, Option.isSome_eq_false_iff,
            Option.isNone_iff_eq_none] at hstale
          exact hstale.1
        by_cases hemail : sec.lower invite.email ≠ sec.lower call.email
        · rw [if_pos hemail]
          exact hend s₁ hwrites₁
        · rw [if_neg hemail]
          refine ⟨trivial, fun existing s₂ ha₂ => ?_⟩
          have hs₂ := answers_read (.inr ⟨_, rfl⟩) ha₂
          have hwrites₂ : s₂.writes = .empty := by rw [hs₂]; exact hwrites₁
          have hlooked : Answered s₂ (.inviteByHash (sec.hashInviteToken token)) (some invite) := by
            rw [hs₂, hs₁]
            exact answered_after.mpr (.inl (answered_after.mpr (.inr rfl)))
          have haccepted := (hend s₂ hwrites₂).2
          cases existing with
          | some user =>
              simp only [Program.pure_bind]
              by_cases hpassword : sec.verifyPassword user.passwordHash call.password = true
              · rw [if_pos hpassword]
                exact grant_spec hlooked hopen haccepted user.id none
              · rw [if_neg hpassword]
                exact hend s₂ hwrites₂
          | none =>
              simp only [Program.pure_bind]
              cases validatePassword sec call.password with
              | some message => trivial
              | none => exact grant_spec hlooked hopen haccepted call.newUserId _

end Spec

/-! ## Runs -/

section Runs

variable {ι : Type}

/-- The locks that `accept_invite` relies on. -/
def inviteDiscipline (start : Db) (h : String) :
    Discipline store Pre fun _ : ι => Post h where
  Valid := Valid start
  Fits := Fits start
  Apart := Apart
  Seen snap _ := Valid start snap
  apart_symm hapart a a' ha ha' := (hapart a' a ha' ha).symm
  init_fits _ _ :=
    ⟨fun _ _ ha => (nomatch ha), fun _ _ ha => (nomatch ha), fun _ _ ha => (nomatch ha)⟩
  init_apart _ _ _ ha := nomatch ha
  seen_refl hc := hc
  exec_fits hexec hpre hc hsnap hs :=
    ⟨(executes_cases hexec).1 ▸ hc, (executes_cases hexec).1 ▸ executes_fits hexec hpre hsnap hs⟩
  exec_stable hexec _ _ _ hfree hs' hapart :=
    ⟨(executes_cases hexec).1 ▸ hs', executes_apart hexec hfree hapart⟩
  exec_seen _ _ hsnap := hsnap
  commit_valid _ hc _ := hc.apply _
  commit_stable _ _ hs' hapart :=
    ⟨fun inviteId now ha => isOpen_apply.mpr
        ⟨hs'.accepted inviteId now ha, fun a ha' => (hapart a _ ha' ha).symm⟩,
      fun inviteId now ha => by
        rw [← Bool.not_eq_true]
        exact fun hopen => by simpa [hs'.missed inviteId now ha] using (isOpen_apply.mp hopen).1,
      hs'.saw⟩
  commit_seen _ _ hsnap := hsnap

variable [Fintype ι] [DecidableEq ι] {start : Db} {h : String} {w w' : InviteWorld ι}
variable {act : Action ι}

theorem successes_set (i : ι) (t : InviteTxn) (c : Db) :
    successes (w.set i t c) + succeeded (w.txns i) = successes w + succeeded t :=
  w.total_set i t c succeeded

theorem successes_set_of_eq {i : ι} {t : InviteTxn} (ht : succeeded t = succeeded (w.txns i))
    (c : Db) : successes (w.set i t c) = successes w := by
  have hset := successes_set (w := w) i t c
  omega

theorem acceptances_apply (ws : WriteSet) (c : Db) (inviteId : ℕ) :
    acceptances (ws.apply c) inviteId = acceptances c inviteId +
      ws.audit.toList.countP fun row => row.action = "invite.accepted" && row.targetId = inviteId :=
  List.countP_append

/-- Everything a step does to the outcome: nothing, or one call commits. -/
theorem step_outcome (hw : (inviteDiscipline start h).Sound w)
    (hstep : w.step store act = some w') :
    (w'.committed = w.committed ∧ successes w' = successes w) ∨
    ∃ i a s waiting, act = .run i ∧ w.txns i = .running (.pure a) s waiting ∧ Post h a s ∧
      Fits start s w.committed ∧ w' = w.set i (.committed a s) (s.writes.apply w.committed) := by
  obtain ⟨i, e, p, s, waiting, ht, rfl⟩ | ⟨i, q, next, s, -, ht, -, rfl⟩ |
    ⟨i, q, next, s, waiting, r, d, c, -, ht, -, he, rfl⟩ | ⟨i, a, s, waiting, hact, ht, rfl⟩ :=
    World.step_cases store hstep
  · exact .inl ⟨rfl, successes_set_of_eq (by rw [ht]; rfl) _⟩
  · exact .inl ⟨rfl, successes_set_of_eq (by rw [ht]; rfl) _⟩
  · have hc : c = w.committed := (executes_cases ⟨r, d, he, rfl⟩).1
    exact .inl ⟨hc, successes_set_of_eq (by rw [ht]; rfl) _⟩
  · have hv := hw.verified i
    rw [ht] at hv
    exact .inr ⟨i, a, s, waiting, hact, ht, hv, hw.fits i s waiting ⟨_, ht⟩, rfl⟩

/-- Until a call gets past an update that changed nothing: one audit row for each success, and the
invite is closed by the one success there may be. -/
structure Tally (start : Db) (h : String) (w : InviteWorld ι) : Prop where
  sound : (inviteDiscipline start h).Sound w
  once : successes w ≤ 1
  audit : ∀ inviteId, acceptances w.committed inviteId ≤ acceptances start inviteId + successes w
  untouched : successes w = 0 → ∀ inviteId, isOpen start.invites inviteId = true →
    isOpen w.committed.invites inviteId = true
  closed : successes w = 1 → ∀ inviteId, target start h = some inviteId →
    isOpen w.committed.invites inviteId = false

/-- The invite of a call that is about to succeed. -/
theorem Granted.target {s : CallSession} {c : Db} {inviteId : ℕ} (hg : Granted h s inviteId)
    (hs : Fits start s c) :
    target start h = some inviteId ∧ isOpen start.invites inviteId = true := by
  obtain ⟨inv, hlooked, hopen, rfl⟩ := hg.looked
  exact hs.saw h inv hlooked hopen

theorem successes_commit {i : ι} {p : InviteTx (Option Accepted)} {s : CallSession}
    {waiting : Option Db} {a : Option Accepted} (ht : w.txns i = .running p s waiting) (c : Db) :
    successes (w.set i (.committed a s) c) = successes w + if a.isSome then 1 else 0 := by
  have hset := successes_set (w := w) i (.committed a s) c
  have hzero : succeeded (w.txns i) = 0 := by rw [ht]; rfl
  cases a with
  | none =>
      have hone : succeeded (.committed none s : InviteTxn) = 0 := rfl
      simpa [hzero, hone] using hset
  | some acc =>
      have hone : succeeded (.committed (some acc) s : InviteTxn) = 1 := rfl
      simpa [hzero, hone] using hset

/-- A call that was refused wrote nothing the tally is about. -/
theorem Tally.commit_refused (ht : Tally start h w) {i : ι} {p : InviteTx (Option Accepted)}
    {s : CallSession} {waiting : Option Db} (htxn : w.txns i = .running p s waiting)
    (hpost : Post h none s)
    (hsound : (inviteDiscipline start h).Sound
      (w.set i (.committed none s) (s.writes.apply w.committed))) :
    Tally start h (w.set i (.committed none s) (s.writes.apply w.committed)) := by
  obtain ⟨haudit, haccepted⟩ := hpost
  have hsame : successes (w.set i (.committed none s) (s.writes.apply w.committed)) =
      successes w := successes_commit (a := none) htxn _
  have hinvites : (s.writes.apply w.committed).invites = w.committed.invites := by
    simp only [WriteSet.apply, haccepted]
  refine ⟨hsound, hsame ▸ ht.once, fun y => ?_, fun h0 y hy => ?_, fun h1 y hy => ?_⟩
  · rw [hsame, World.set_committed, acceptances_apply, haudit]
    exact ht.audit y
  · rw [World.set_committed, hinvites]
    exact ht.untouched (hsame ▸ h0) y hy
  · rw [World.set_committed, hinvites]
    exact ht.closed (hsame ▸ h1) y hy

/-- A call that accepted the invite is the first to succeed: the invite was still open. -/
theorem Tally.commit_accepted (ht : Tally start h w) {i : ι} {p : InviteTx (Option Accepted)}
    {s : CallSession} {waiting : Option Db} {acc : Accepted} {x : ℕ} {now : Timestamp}
    (htxn : w.txns i = .running p s waiting) (hfits : Fits start s w.committed)
    (htarget : target start h = some x) (hnow : s.writes.accepted = some (x, now))
    (hsound : (inviteDiscipline start h).Sound
      (w.set i (.committed (some acc) s) (s.writes.apply w.committed))) :
    Tally start h (w.set i (.committed (some acc) s) (s.writes.apply w.committed)) := by
  have hzero : successes w = 0 := by
    have hopen := hfits.accepted x now hnow
    have hle := ht.once
    by_contra hne
    have hclosed := ht.closed (by omega) x htarget
    rw [hclosed] at hopen
    cases hopen
  have hone : successes (w.set i (.committed (some acc) s) (s.writes.apply w.committed)) = 1 := by
    rw [successes_commit htxn, hzero]
    rfl
  refine ⟨hsound, hone.le, fun y => ?_, fun h0 => ?_, fun _ y hy => ?_⟩
  · rw [hone, World.set_committed, acceptances_apply]
    have haudit := ht.audit y
    have hrow : (s.writes.audit.toList.countP fun row =>
        row.action = "invite.accepted" && row.targetId = y) ≤ 1 := by
      refine List.countP_le_length.trans ?_
      cases s.writes.audit <;> simp
    omega
  · rw [hone] at h0
    cases h0
  · obtain rfl : x = y := Option.some.inj (htarget.symm.trans hy)
    rw [World.set_committed, ← Bool.not_eq_true, isOpen_apply]
    exact fun hopen => hopen.2 _ hnow rfl

theorem step_tally (ht : Tally start h w) (hclaimed : CommitsClaimed w act)
    (hstep : w.step store act = some w') : Tally start h w' := by
  have hsound := (inviteDiscipline start h).step_sound ht.sound hstep
  obtain ⟨hc, hsame⟩ | ⟨i, a, s, waiting, rfl, htxn, hpost, hfits, rfl⟩ :=
    step_outcome ht.sound hstep
  · exact ⟨hsound, by rw [hsame]; exact ht.once, fun y => by rw [hc, hsame]; exact ht.audit y,
      fun h0 y hy => by rw [hc]; exact ht.untouched (hsame ▸ h0) y hy,
      fun h1 y hy => by rw [hc]; exact ht.closed (hsame ▸ h1) y hy⟩
  · cases a with
    | none => exact ht.commit_refused htxn hpost hsound
    | some acc =>
        obtain ⟨x, hg⟩ := hpost
        have hclaim : s.writes.accepted.isSome = true := by
          have hrunning := hclaimed
          simp only [CommitsClaimed, InviteTxn.Claims, htxn] at hrunning
          exact hrunning
        obtain ⟨now, hnow⟩ : ∃ now, s.writes.accepted = some (x, now) := by
          rcases hg.updated with hupd | ⟨hnone, -⟩
          · exact hupd
          · rw [hnone] at hclaim
            cases hclaim
        exact ht.commit_accepted htxn hfits (hg.target hfits).1 hnow hsound

/-- A call that commits although its update changed nothing is the second to succeed. -/
theorem unclaimed_commit (ht : Tally start h w) (hclaimed : ¬ CommitsClaimed w act)
    (hstep : w.step store act = some w') : 2 ≤ successes w' := by
  cases act with
  | fail i => exact absurd trivial hclaimed
  | run i =>
      obtain ⟨acc, s, waiting, htxn, hnot⟩ : ∃ acc s waiting,
          w.txns i = .running (.pure (some acc)) s waiting ∧ ¬ Claimed s := by
        simp only [CommitsClaimed, InviteTxn.Claims] at hclaimed
        split at hclaimed
        · next acc s waiting htxn => exact ⟨acc, s, waiting, htxn, hclaimed⟩
        · exact absurd trivial hclaimed
      obtain rfl : _ = w' := Option.some.inj ((World.step_pure store htxn).symm.trans hstep)
      have hv := ht.sound.verified i
      rw [htxn] at hv
      obtain ⟨x, hg⟩ := hv
      have hfits := ht.sound.fits i s waiting ⟨_, htxn⟩
      obtain ⟨-, hstart⟩ := hg.target hfits
      obtain ⟨now, hmissed⟩ : ∃ now, Answered s (.acceptInvite x now) (0 : ℕ) := by
        rcases hg.updated with ⟨now, hnow⟩ | ⟨-, hmissed⟩
        · exact absurd (by simp [Claimed, hnow]) hnot
        · exact hmissed
      have hclosed := hfits.missed x now hmissed
      have hsome : successes w ≠ 0 := by
        intro hzero
        rw [ht.untouched hzero x hstart] at hclosed
        cases hclosed
      have hsucc := successes_commit (a := some acc) htxn (store.merge s.writes w.committed)
      simp only [Option.isSome_some, if_true] at hsucc
      omega

theorem successes_mono (hw : (inviteDiscipline start h).Sound w)
    (hstep : w.step store act = some w') : successes w ≤ successes w' := by
  obtain ⟨-, hsame⟩ | ⟨i, a, s, waiting, rfl, htxn, -, -, rfl⟩ := step_outcome hw hstep
  · exact hsame.ge
  · rw [successes_commit htxn]
    exact Nat.le_add_right _ _

omit [DecidableEq ι] in
theorem start_successes (sec : Security) (token : String) (calls : ι → AcceptCall) (db : Db) :
    successes (startCalls sec token calls db) = 0 := by
  simp [successes, World.total, startCalls, World.start, succeeded]

/-- Whatever the calls with one token do: at most one has succeeded and at most one audit row has
been written if and only if every call that committed had found the invite open when its `UPDATE`
ran. -/
theorem accepted_once_iff (sec : Security) (token : String) (calls : ι → AcceptCall) (db : Db)
    (acts : List (Action ι)) (w : InviteWorld ι)
    (hrun : run (World.step store) (startCalls sec token calls db) acts = some w) :
    AcceptedOnce db w ↔
      Along (World.step store) CommitsClaimed (startCalls sec token calls db) acts := by
  have hspec (i : ι) := acceptInvite_spec sec token (calls i) (s := store.init ()) rfl
  have hstart : Tally db (sec.hashInviteToken token) (startCalls sec token calls db) := by
    have hsuccesses := start_successes sec token calls db
    refine ⟨(inviteDiscipline db _).start_sound ⟨rfl, fun _ ho => ho⟩ hspec, by omega,
      fun _ => Nat.le_add_right _ _, fun _ _ ho => ho, fun hone => by omega⟩
  let D : Discipline store Pre fun _ : ι => Post (sec.hashInviteToken token) :=
    inviteDiscipline db (sec.hashInviteToken token)
  have hgood (w : InviteWorld ι) (ht : Tally db (sec.hashInviteToken token) w) :
      AcceptedOnce db w :=
    ⟨ht.once, fun y => (ht.audit y).trans (Nat.add_le_add_left ht.once _)⟩
  have hbad (w : InviteWorld ι) (hw : D.Sound w ∧ 2 ≤ successes w) : ¬ AcceptedOnce db w := by
    intro ho
    have honce := ho.calls
    omega
  exact ends_well_iff_along (E := fun _ => True) (fun _ _ _ ht hc hs => step_tally ht hc hs)
    (fun _ _ _ ht hc hs => ⟨D.step_sound ht.sound hs, unclaimed_commit ht hc hs⟩)
    (fun _ _ _ hj hs => ⟨D.step_sound hj.1 hs, hj.2.trans (successes_mono hj.1 hs)⟩)
    (fun w ht _ => hgood w ht) (fun w hj _ => hbad w hj) hstart hrun trivial

def plainSecurity : Security := ⟨id, id, fun hash password => hash == password, id⟩

/-- One open invite for a user who exists. -/
def invitedDb : Db where
  invites := [⟨1, 3, "a@example", "member", "token", 100, none⟩]
  users := [⟨7, "a@example", "password"⟩]
  memberships := []
  audit := []

def sameCall (_ : Bool) : AcceptCall := ⟨"a@example", "password", 0, 9⟩

/-- Both calls look the invite up before either writes. -/
def bothLookFirst : List (Action Bool) :=
  [.run false, .run true] ++ List.replicate 5 (.run false) ++ List.replicate 5 (.run true)

theorem invite_accepted_twice : ∃ w, run (World.step store)
    (startCalls plainSecurity "token" sameCall invitedDb) bothLookFirst = some w ∧
      ¬ AcceptedOnce invitedDb w := by
  have htally : (run (World.step store) (startCalls plainSecurity "token" sameCall invitedDb)
      bothLookFirst).map successes = some 2 := by decide +kernel
  obtain ⟨w, hw, htwo⟩ := Option.map_eq_some_iff.mp htally
  refine ⟨w, hw, fun ho => ?_⟩
  have honce := ho.calls
  omega

def oneAfterTheOther : List (Action Bool) :=
  List.replicate 6 (.run false) ++ List.replicate 2 (.run true)

theorem invite_accepted_in_turn : ∃ w, run (World.step store)
    (startCalls plainSecurity "token" sameCall invitedDb) oneAfterTheOther = some w ∧
      AcceptedOnce invitedDb w :=
  ⟨_, rfl, (accepted_once_iff plainSecurity "token" sameCall invitedDb oneAfterTheOther _ rfl).mpr
    (by decide +kernel)⟩

end Runs

end Crashlens.Invites
