import Crashlens.GrantedRoles
import Crashlens.IngestRoute
import Crashlens.Invites
import Crashlens.JsonText
import Crashlens.Library.Serial
import Crashlens.ServiceStatements

/-!
# An acceptance as one transaction

`Invites.acceptInvite` is an acceptance as concurrent calls meet it, over the tables it touches;
`acceptInvite` is the service, with its sessions, policies and foreign keys over the whole
database. `Shows` relates their tables, and `acceptInvite_shown` says that the transaction returns
what the service returns and that the tables stay related. Texts there are Lean strings, which hold
no lone surrogate.
-/

namespace Crashlens.Tenant

open Transactional RowSecurity
open Edge (asString)

section Texts

variable {s t : PyStr}

theorem ofNat_toNat_of_not_surrogate {c : CodePoint} (h : c.isSurrogate = false) :
    CodePoint.ofNat (Char.ofNat c.val).toNat = c := by
  have hvalid : c.val.isValidChar := by
    have hlt := c.isLt
    rw [CodePoint.isSurrogate, Bool.and_eq_false_iff, decide_eq_false_iff_not,
      decide_eq_false_iff_not] at h
    unfold Nat.isValidChar
    omega
  have hval : (Char.ofNat c.val).toNat = c.val := by
    rw [Char.ofNat, dif_pos hvalid]
    rfl
  exact Fin.ext (by rw [hval]; exact Nat.mod_eq_of_lt c.isLt)

theorem py_asString (h : s.Encodable) : py (asString s) = s := by
  rw [py, asString, String.toList_ofList, List.map_map]
  refine (List.map_congr_left fun c hc => ?_).trans (List.map_id s)
  exact ofNat_toNat_of_not_surrogate (h c hc)

theorem asString_py (text : String) : asString (py text) = text := by
  have hchar (c : Char) : Char.ofNat (CodePoint.ofNat c.toNat).val = c := by
    have hlt : c.toNat < 0x110000 := by
      have hvalid : c.toNat < 0xD800 ∨ (0xDFFF < c.toNat ∧ c.toNat < 0x110000) := c.valid
      omega
    have hval : (CodePoint.ofNat c.toNat).val = c.toNat := Nat.mod_eq_of_lt hlt
    rw [hval, Char.ofNat_toNat]
  rw [py, asString, List.map_map]
  refine (congrArg String.ofList ?_).trans String.ofList_toList
  exact (List.map_congr_left fun c _ => hchar c).trans (List.map_id _)

theorem asString_inj (hs : s.Encodable) (ht : t.Encodable) : asString s = asString t ↔ s = t := by
  refine ⟨fun h => ?_, congrArg asString⟩
  rw [← py_asString hs, h, py_asString ht]

theorem length_asString : (asString s).length = s.length := by
  rw [asString, String.length_ofList, List.length_map]

end Texts

/-! ## The view -/

section View

variable (lib : Libraries)

/-- What the transaction takes from the libraries. -/
def Libraries.security : Invites.Security where
  hashInviteToken token := asString ((hashInviteToken lib (py token)).toOption.getD [])
  hashPassword password := asString ((lib.hashPassword (py password)).toOption.getD [])
  verifyPassword passwordHash password :=
    (lib.verifyPassword (py passwordHash) (py password)).toOption.getD false
  lower text := asString (lib.lower (py text))

def Invite.view (invite : Invite) : Invites.Invite where
  id := invite.id
  orgId := invite.orgId
  email := asString invite.email.val
  role := asString invite.role.str
  tokenHash := asString invite.tokenHash.val
  expiresAt := invite.expiresAt
  acceptedAt := invite.acceptedAt

def User.view (u : User) : Invites.User :=
  ⟨u.id, asString u.email.val, asString u.passwordHash.val⟩

def Membership.view (m : Membership) : Invites.Membership :=
  ⟨m.orgId, m.userId, asString m.role.str⟩

def Accepted.view (acc : Accepted) : Invites.Accepted :=
  ⟨acc.userId, asString acc.email, acc.orgId, asString acc.role.str⟩

def acceptCall (draw : Drawn) (email password : PyStr) : Invites.AcceptCall :=
  ⟨asString email, asString password, draw.now, draw.id⟩

structure AuditRow.Reports (row : AuditRow) (reported : Invites.AuditRow) : Prop where
  orgId : row.orgId = reported.orgId
  actorUserId : row.actorUserId = some reported.actorUserId
  action : row.action = reported.action
  targetType : row.targetType = reported.targetType
  targetId : row.targetId.map (fun s => s.val) = some (uuidStr reported.targetId)
  data : row.data = [(py "email", .str (py reported.email)), (py "role", .str (py reported.role))]

/-- The log of the transaction holds the acceptances alone. -/
structure Db.Shows (db : Db) (seen : Invites.Db) : Prop where
  invites : seen.invites = db.invites.map Invite.view
  users : seen.users = db.users.map User.view
  memberships : seen.memberships = db.memberships.map Membership.view
  audit : List.Forall₂ AuditRow.Reports
    (db.auditLog.filter fun row => row.action = "invite.accepted") seen.audit

def Db.InviteIdsUnique (db : Db) : Prop := (db.invites.map Invite.id).Nodup

end View

section Libraries

variable {lib : Libraries} {token tokenHash email password passwordHash : PyStr}

theorem security_hashInviteToken (h : hashInviteToken lib token = .ok tokenHash) :
    lib.security.hashInviteToken (asString token) = asString tokenHash := by
  have htoken : token.Encodable := by
    obtain ⟨bytes, hbytes, -⟩ := bind_ok h
    refine utf8Encode_isOk_iff.mp ⟨bytes, ?_⟩
    cases hutf8 : utf8Encode token with
    | ok b =>
        rw [hutf8] at hbytes
        rw [Except.ok.inj hbytes]
    | error e =>
        rw [hutf8] at hbytes
        cases hbytes
  simp only [Libraries.security, py_asString htoken, h, Except.toOption, Option.getD_some]

theorem ofPython_ok {α : Type} {x : Except PyError α} {a : α} (h : ofPython x = .ok a) :
    x = .ok a := by
  cases x with
  | ok b => rw [Except.ok.inj h]
  | error e => cases h

theorem security_hashPassword (hpassword : password.Encodable)
    (h : ofPython (lib.hashPassword password) = .ok passwordHash) :
    lib.security.hashPassword (asString password) = asString passwordHash := by
  simp only [Libraries.security, py_asString hpassword, ofPython_ok h, Except.toOption,
    Option.getD_some]

theorem security_verifyPassword {verified : Bool} (hhash : passwordHash.Encodable)
    (hpassword : password.Encodable)
    (h : ofPython (lib.verifyPassword passwordHash password) = .ok verified) :
    lib.security.verifyPassword (asString passwordHash) (asString password) = verified := by
  simp only [Libraries.security, py_asString hhash, py_asString hpassword, ofPython_ok h,
    Except.toOption, Option.getD_some]

variable (hlower : ∀ s : PyStr, s.Encodable → (lib.lower s).Encodable)

theorem security_lower {s : PyStr} (hs : s.Encodable) :
    lib.security.lower (asString s) = asString (lib.lower s) := by
  simp only [Libraries.security, py_asString hs]

include hlower in
theorem security_lower_inj {s t : PyStr} (hs : s.Encodable) (ht : t.Encodable) :
    lib.security.lower (asString s) = lib.security.lower (asString t) ↔
      lib.lower s = lib.lower t := by
  rw [security_lower hs, security_lower ht, asString_inj (hlower s hs) (hlower t ht)]

include hlower in
theorem validatePassword_shown (hpassword : password.Encodable) :
    Invites.validatePassword lib.security (asString password) =
      (validatePassword lib password).map asString := by
  have hcommon : asString (lib.lower password) ∈ Invites.commonPasswords ↔
      (Invites.commonPasswords.map py).contains (lib.lower password) = true := by
    rw [List.contains_iff_mem, List.mem_map]
    constructor
    · exact fun h => ⟨_, h, py_asString (hlower password hpassword)⟩
    · rintro ⟨text, hmem, htext⟩
      rw [← htext, asString_py]
      exact hmem
  unfold Invites.validatePassword validatePassword
  rw [length_asString, security_lower hpassword]
  split_ifs with hshort hmem hmem' hmem'
  · rw [Option.map_some, asString_py]
  · rw [Option.map_some, asString_py]
  · exact absurd (hcommon.mp hmem) hmem'
  · exact absurd (hcommon.mpr hmem') hmem
  · rfl

end Libraries

/-! ## Statements -/

section Statements

variable {srv : Server} {db db₁ : Db} {seen : Invites.Db} {org : ℕ} {tokenHash email : PyStr}

theorem apply_empty : Invites.WriteSet.empty.apply seen = seen := by
  simp [Invites.WriteSet.apply, Invites.WriteSet.empty]

theorem shows_empty (h : db.Shows seen) : db.Shows (Invites.WriteSet.empty.apply seen) :=
  apply_empty.symm ▸ h

theorem role_encodable (role : MemberRole) : role.str.Encodable := by
  cases role with
  | admin => exact py_encodable "admin"
  | member => exact py_encodable "member"

theorem byHash_shown (h : db.Shows seen) (hhash : tokenHash.Encodable) {found : Option Invite}
    (hfound : found.toList = db.invites.filter fun invite => invite.tokenHash.val = tokenHash) :
    Invites.byHash seen.invites (asString tokenHash) = .ok (found.map Invite.view) := by
  have hrows : (seen.invites.filter fun invite => invite.tokenHash = asString tokenHash) =
      found.toList.map Invite.view := by
    rw [h.invites, List.filter_map, hfound]
    refine congrArg _ (List.filter_congr fun invite _ => decide_eq_decide.mpr ?_)
    exact asString_inj (encodable_of_storable invite.tokenHash.2) hhash
  unfold Invites.byHash
  rw [hrows]
  cases found <;> rfl

theorem userByEmail_shown (h : db.Shows seen) (hemail : email.Encodable) {found : Option User}
    (hfound : found.toList = db.users.filter fun u => u.email.val = email) :
    (seen.users.find? fun u => u.email = asString email) = found.map User.view := by
  rw [h.users, List.find?_map, ← Option.head?_toList (o := found), hfound, List.head?_filter]
  refine congrArg _ (congrArg (fun p => List.find? p db.users) (funext fun u => ?_))
  refine decide_eq_decide.mpr ?_
  exact asString_inj (encodable_of_storable u.email.2) hemail

theorem insertUser_shown {id : ℕ} {passwordHash : PyStr} {u : Unit} (h : db.Shows seen)
    (hins : exec srv (.tenant org) (.insertUser id email passwordHash) db = (.ok u, db₁)) :
    let user : Invites.User := ⟨id, asString email, asString passwordHash⟩
    let w : Invites.WriteSet := { Invites.WriteSet.empty with user := some user }
    Invites.exec () seen seen .empty (.insertUser user) = .ok ((), w, seen) ∧
      db₁.Shows (w.apply seen) ∧ db₁.invites = db.invites := by
  have hst := exec_ok hins
  simp only [statement] at hst
  obtain ⟨email', hemail, hst⟩ := bind_ok hst
  obtain ⟨passwordHash', hhash, hst⟩ := bind_ok hst
  obtain ⟨_, hfresh, hst⟩ := bind_ok hst
  cases hst
  obtain rfl := bindText_val hemail
  obtain rfl := bindText_val hhash
  have hclash : (seen.users.any fun u => u.id = id || u.email = asString email'.val) = false := by
    rw [List.any_eq_false]
    intro u hu
    rw [h.users] at hu
    obtain ⟨existing, hexisting, rfl⟩ := List.mem_map.mp hu
    have hne := List.all_eq_true.mp (require_ok hfresh) existing hexisting
    rw [Bool.and_eq_true, decide_eq_true_eq, decide_eq_true_eq] at hne
    have hemails : asString existing.email.val ≠ asString email'.val := fun heq => hne.2 <|
      Subtype.ext ((asString_inj (encodable_of_storable existing.email.2)
        (encodable_of_storable email'.2)).mp heq)
    simp [User.view, hne.1, hemails]
  have hsame := shows_empty h
  refine ⟨?_, ⟨hsame.invites, ?_, hsame.memberships, hsame.audit⟩, rfl⟩
  · simp only [Invites.exec, apply_empty, hclash]
    rfl
  · rw [List.map_append, ← h.users]
    rfl

theorem insertMembership_shown {userId : ℕ} {role : MemberRole} {u : Unit}
    {user : Option Invites.User}
    (h : db.Shows (Invites.WriteSet.apply ⟨user, none, none, none⟩ seen))
    (hins : exec srv (.tenant org) (.insertMembership org userId role) db = (.ok u, db₁)) :
    ∃ membership : Option Invites.Membership,
      Invites.exec () seen seen ⟨user, none, none, none⟩
          (.insertMembership ⟨org, userId, asString role.str⟩) =
        .ok ((), ⟨user, membership, none, none⟩, seen) ∧
      db₁.Shows (Invites.WriteSet.apply ⟨user, membership, none, none⟩ seen) := by
  have hany : ((Invites.WriteSet.apply ⟨user, none, none, none⟩ seen).memberships.any fun m =>
      m.orgId = org && m.userId = userId) =
        db.memberships.any fun m => m.orgId = org && m.userId = userId := by
    rw [h.memberships, List.any_map]
    rfl
  obtain rfl := rows_insertMembership hins
  unfold joined
  by_cases hmember : (db.memberships.any fun m => m.orgId = org && m.userId = userId) = true
  · refine ⟨none, ?_, h.invites, h.users, ?_, h.audit⟩
    · simp only [Invites.exec, hany, hmember, if_true]
    · rw [if_pos hmember]
      exact h.memberships
  · refine ⟨some ⟨org, userId, asString role.str⟩, ?_, h.invites, h.users, ?_, h.audit⟩
    · simp only [Invites.exec, hany, hmember]
      rfl
    · rw [if_neg hmember, List.map_append, ← h.memberships]
      simp [Invites.WriteSet.apply, Membership.view]

theorem acceptInvite_row_shown {invite : Invite} {now : Timestamp}
    (hkey : ∀ inv ∈ db.invites, inv.id = invite.id → inv.orgId = invite.orgId) :
    (update (.tenant invite.orgId) (fun inv => inv.id = invite.id && inv.acceptedAt.isNone)
        (Invite.accept now) db.invites).map Invite.view =
      (db.invites.map Invite.view).map (Invites.Invite.accept invite.id now) := by
  rw [update, List.map_map, List.map_map]
  refine List.map_congr_left fun inv hinv => ?_
  simp only [Function.comp_apply, Invites.Invite.accept]
  by_cases hopen : inv.id = invite.id ∧ inv.acceptedAt = none
  · rw [if_pos (show inv.view.id = invite.id ∧ inv.view.acceptedAt = none from hopen), if_pos]
    · rfl
    · rw [Bool.and_eq_true]
      exact ⟨admits_tenant.mpr (hkey inv hinv hopen.1), by simp [hopen]⟩
  · rw [if_neg (show ¬(inv.view.id = invite.id ∧ inv.view.acceptedAt = none) from hopen), if_neg]
    rw [Bool.and_eq_true]
    rintro ⟨-, hboth⟩
    exact hopen (by simpa using hboth)

theorem acceptInvite_statement_shown {invite : Invite} {now : Timestamp} {rowcount : ℕ}
    {user : Option Invites.User} {membership : Option Invites.Membership}
    (h : db.Shows (Invites.WriteSet.apply ⟨user, membership, none, none⟩ seen))
    (hkey : ∀ inv ∈ db.invites, inv.id = invite.id → inv.orgId = invite.orgId)
    (hmem : invite ∈ db.invites) (hopen : invite.acceptedAt = none)
    (hex : exec srv (.tenant invite.orgId) (.acceptInvite now invite.id) db =
      (.ok rowcount, db₁)) :
    ∃ n, Invites.exec () seen seen ⟨user, membership, none, none⟩ (.acceptInvite invite.id now) =
        .ok (n, ⟨user, membership, some (invite.id, now), none⟩, seen) ∧
      db₁.Shows (Invites.WriteSet.apply ⟨user, membership, some (invite.id, now), none⟩ seen) := by
  have hcount : 0 < (Invites.WriteSet.apply ⟨user, membership, none, none⟩ seen).invites.countP
      fun inv => inv.id = invite.id && inv.acceptedAt.isNone := by
    rw [h.invites, List.countP_pos_iff]
    exact ⟨invite.view, List.mem_map_of_mem hmem, by simp [Invite.view, hopen]⟩
  obtain rfl := rows_acceptInvite hex
  have hexec : Invites.exec () seen seen ⟨user, membership, none, none⟩
      (.acceptInvite invite.id now) =
        .ok ((Invites.WriteSet.apply ⟨user, membership, none, none⟩ seen).invites.countP
            fun inv => inv.id = invite.id && inv.acceptedAt.isNone,
          ⟨user, membership, some (invite.id, now), none⟩, seen) := by
    simp only [Invites.exec, if_pos hcount]
  refine ⟨_, hexec, ?_, h.users, h.memberships, h.audit⟩
  rw [acceptInvite_row_shown hkey, ← h.invites]
  rfl

theorem insertAudit_shown {draw : Drawn} {invite : Invite} {userId : ℕ} {u : Unit}
    {w : Invites.WriteSet} (hw : w.audit = none) (h : db.Shows (w.apply seen))
    (hemail : email.Encodable)
    (hex : exec srv (.tenant org) (.insertAudit (acceptedEntry draw invite email userId)) db =
      (.ok u, db₁)) :
    let row : Invites.AuditRow := ⟨invite.orgId, userId, "invite.accepted", "invite", invite.id,
      asString email, asString invite.role.str⟩
    db₁.Shows (Invites.WriteSet.apply { w with audit := some row } seen) := by
  obtain ⟨row, rfl, hrow⟩ := exec_insertAudit_row hex
  refine ⟨h.invites, h.users, h.memberships, ?_⟩
  have hreports : row.Reports ⟨invite.orgId, userId, "invite.accepted", "invite", invite.id,
      asString email, asString invite.role.str⟩ := by
    refine ⟨hrow.orgId, hrow.actorUserId, hrow.action, hrow.targetType, hrow.targetId, ?_⟩
    rw [hrow.data, py_asString hemail, py_asString (role_encodable invite.role)]
    rfl
  have haudit := h.audit
  simp only [Invites.WriteSet.apply, hw, Option.toList_none, List.append_nil] at haudit
  rw [List.filter_append]
  refine List.rel_append haudit ?_
  have hlast : ([row].filter fun row => row.action = "invite.accepted") = [row] :=
    List.filter_cons_of_pos (decide_eq_true hrow.action)
  rw [hlast]
  exact .cons hreports .nil

end Statements

/-! ## The ids of the invites -/

section Ids

variable {lib : Libraries} {srv : Server} {scope : Scope ℕ} {db db₁ : Db}

theorem inviteIdsUnique_exec {q : Request} {r : Response q}
    (h : exec srv scope q db = (.ok r, db₁)) (hdb : db.InviteIdsUnique) : db₁.InviteIdsUnique := by
  have hst := exec_ok h
  cases q with
  | insertInvite id orgId email role tokenHash expiresAt =>
      simp only [statement] at hst
      obtain ⟨email', -, hst⟩ := bind_ok hst
      obtain ⟨tokenHash', -, hst⟩ := bind_ok hst
      obtain ⟨_, -, hst⟩ := bind_ok hst
      obtain ⟨role', -, hst⟩ := bind_ok hst
      obtain ⟨_, hfresh, hst⟩ := bind_ok hst
      cases hst
      have hnew := (Bool.and_eq_true_iff.mp (require_ok hfresh)).2
      rw [Db.InviteIdsUnique, List.map_append, List.map_singleton, ← List.concat_eq_append]
      refine hdb.concat fun hmem => ?_
      obtain ⟨invite, hinvite, hid⟩ := List.mem_map.mp hmem
      exact of_decide_eq_true (List.all_eq_true.mp hnew invite hinvite) hid
  | acceptInvite now inviteId =>
      cases hst
      have hsame : (update scope (fun inv => inv.id = inviteId && inv.acceptedAt.isNone)
          (Invite.accept now) db.invites).map Invite.id = db.invites.map Invite.id :=
        map_update fun _ => rfl
      rw [Db.InviteIdsUnique, hsame]
      exact hdb
  | insertMembership orgId userId role =>
      simp only [statement] at hst
      obtain ⟨_, -, hst⟩ := bind_ok hst
      split at hst
      · cases hst
        exact hdb
      · obtain ⟨_, -, hst⟩ := bind_ok hst
        cases hst
        exact hdb
  | _ =>
      simp only [statement] at hst
      repeat obtain ⟨_, -, hst⟩ := bind_ok hst
      cases hst
      exact hdb

/-- Over any run of the services. -/
theorem runCalls_inviteIdsUnique (calls : List (Drawn × Call)) (hdb : db.InviteIdsUnique) :
    (runCalls lib srv calls db).InviteIdsUnique := by
  induction calls generalizing db with
  | nil => exact hdb
  | cons c calls ih =>
      exact ih (call_keeps (fun _ _ _ _ _ _ hexec => inviteIdsUnique_exec hexec) db hdb)

end Ids

/-! ## The call -/

section Call

variable {lib : Libraries} {srv : Server} {draw : Drawn} {db db₁ : Db} {seen : Invites.Db}
  {invite : Invite} {token email password : PyStr} {userId : ℕ} {a : Option Accepted}

theorem insertNewUser_shown {org : ℕ} {passwordHash : Option PyStr} (h : db.Shows seen) :
    Guarantees srv (.tenant org) (insertNewUser userId email passwordHash) db fun _ db₁ =>
      ∃ user, Runs Invites.store ()
          (Invites.insertNewUser (passwordHash.map fun passwordHash =>
            ⟨userId, asString email, asString passwordHash⟩))
          .empty seen (.ok ()) ⟨user, none, none, none⟩ seen ∧
        db₁.Shows (Invites.WriteSet.apply ⟨user, none, none, none⟩ seen) ∧
        db₁.invites = db.invites := by
  cases passwordHash with
  | none => exact guarantees_pure ⟨none, .pure .., shows_empty h, rfl⟩
  | some passwordHash =>
      refine guarantees_execute fun _ db₁ hins => ?_
      obtain ⟨hexec, hshows, hinvites⟩ := insertUser_shown h hins
      exact ⟨_, Runs.request hexec, hshows, hinvites⟩

theorem grant_shown {passwordHash : Option PyStr} (h : db.Shows seen) (hmem : invite ∈ db.invites)
    (hkey : ∀ inv ∈ db.invites, inv.id = invite.id → inv.orgId = invite.orgId)
    (hopen : invite.acceptedAt = none) (hemail : email.Encodable)
    (hgrant : grant lib srv draw invite email userId passwordHash db = (.ok a, db₁)) :
    ∃ w, Runs Invites.store ()
        (Invites.grant invite.view (acceptCall draw email password) userId
          (passwordHash.map fun passwordHash => ⟨userId, asString email, asString passwordHash⟩))
        .empty seen (.ok (a.map Accepted.view)) w seen ∧
      db₁.Shows (w.apply seen) := by
  refine session_ok (fun a db₁ => ∃ w, Runs Invites.store () _ .empty seen
    (.ok (Option.map Accepted.view a)) w seen ∧ db₁.Shows (w.apply seen)) (guarantees_bind ?_)
    hgrant
  refine Program.wp_mono (fun _ db₂ huser => ?_) (insertNewUser_shown h)
  obtain ⟨user, hrun₁, hshows₂, hinvites⟩ := huser
  refine guarantees_execute fun _ db₃ hinsert => ?_
  obtain ⟨membership, hexec₂, hshows₃⟩ := insertMembership_shown hshows₂ hinsert
  have hinvites₃ : db₃.invites = db.invites := by rw [rows_insertMembership hinsert, ← hinvites]
  refine guarantees_execute fun _ db₄ haccept => ?_
  obtain ⟨n, hexec₃, hshows₄⟩ := acceptInvite_statement_shown hshows₃ (hinvites₃ ▸ hkey)
    (hinvites₃ ▸ hmem) hopen haccept
  refine guarantees_bind (guarantees_raiseError fun _ _ => ⟨trivial, fun _ db₅ haudit => ?_⟩)
  refine guarantees_pure ⟨_, ?_, insertAudit_shown rfl hshows₄ hemail haudit⟩
  exact Runs.bind hrun₁ (Runs.bind (Runs.request hexec₂) (Runs.bind (Runs.request hexec₃)
    (Runs.bind (Runs.request rfl) (.pure ..))))

/-- Once the invite is found open for this email, on any program that goes on as the transaction
does. -/
theorem acceptOpenInvite_runs (hlower : ∀ s : PyStr, s.Encodable → (lib.lower s).Encodable)
    {next : Option Invites.User → Invites.InviteTx (Option Invites.Accepted)}
    (hexisting : ∀ user, next (some user) =
      if lib.security.verifyPassword user.passwordHash (asString password) then
        Invites.grant invite.view (acceptCall draw email password) user.id none
      else .pure none)
    (hnew : Invites.validatePassword lib.security (asString password) = none → next none =
      Invites.grant invite.view (acceptCall draw email password) draw.id
        (some ⟨draw.id, asString email, lib.security.hashPassword (asString password)⟩))
    (hmem : invite ∈ db.invites)
    (hkey : ∀ inv ∈ db.invites, inv.id = invite.id → inv.orgId = invite.orgId)
    (hopen : invite.acceptedAt = none) (hemail : email.Encodable) (hpassword : password.Encodable)
    (h : db.Shows seen)
    (haccept : acceptOpenInvite lib srv draw invite email password db = (.ok a, db₁)) :
    ∃ w, Runs Invites.store () ((Invites.execute (.userByEmail (asString email))).bind next)
        .empty seen (.ok (a.map Accepted.view)) w seen ∧
      db₁.Shows (w.apply seen) := by
  obtain ⟨found, db₂, hfound, haccept⟩ := Service.bind_ok haccept
  obtain ⟨rfl, husers⟩ := loadUserByEmail_ok hfound
  have huser : Invites.exec () seen seen .empty (.userByEmail (asString email)) =
      .ok (found.map User.view, .empty, seen) := by
    have hfind := userByEmail_shown h hemail husers
    simp only [Invites.exec, apply_empty, hfind]
  suffices hrest : ∃ w, Runs Invites.store () (next (found.map User.view)) .empty seen
      (.ok (a.map Accepted.view)) w seen ∧ db₁.Shows (w.apply seen) by
    obtain ⟨w, hrun, hshows⟩ := hrest
    exact ⟨w, Runs.bind (Runs.request huser) hrun, hshows⟩
  cases found with
  | some existing =>
      obtain ⟨verified, hverified, haccept⟩ := Service.ofExcept_bind_ok haccept
      have hverify : lib.security.verifyPassword existing.view.passwordHash (asString password) =
          verified :=
        security_verifyPassword (encodable_of_storable existing.passwordHash.2) hpassword hverified
      rw [Option.map_some, hexisting, hverify]
      cases verified with
      | true => exact grant_shown h hmem hkey hopen hemail haccept
      | false =>
          cases haccept
          exact ⟨_, .pure .., shows_empty h⟩
  | none =>
      dsimp only at haccept
      cases hvalid : validatePassword lib password with
      | some message =>
          rw [hvalid] at haccept
          cases haccept
      | none =>
          rw [hvalid] at haccept
          obtain ⟨passwordHash, hmade, haccept⟩ := Service.ofExcept_bind_ok haccept
          have hpolicy : Invites.validatePassword lib.security (asString password) = none := by
            rw [validatePassword_shown hlower hpassword, hvalid, Option.map_none]
          rw [Option.map_none, hnew hpolicy, security_hashPassword hpassword hmade]
          exact grant_shown h hmem hkey hopen hemail haccept

theorem acceptInvite_runs (hlower : ∀ s : PyStr, s.Encodable → (lib.lower s).Encodable)
    (hids : db.InviteIdsUnique) (hemail : email.Encodable)
    (hpassword : password.Encodable) (h : db.Shows seen)
    (haccept : acceptInvite lib srv draw token email password db = (.ok a, db₁)) :
    ∃ w, Runs Invites.store ()
        (Invites.acceptInvite lib.security (asString token) (acceptCall draw email password))
        .empty seen (.ok (a.map Accepted.view)) w seen ∧
      db₁.Shows (w.apply seen) := by
  obtain ⟨tokenHash, hhash, haccept⟩ := Service.ofExcept_bind_ok haccept
  obtain ⟨found, db₂, hfound, haccept⟩ := Service.bind_ok haccept
  obtain ⟨⟨rfl, hrows⟩, hstorable⟩ := inviteByToken_ok hfound
  have hread : Invites.exec () seen seen .empty
      (.inviteByHash (lib.security.hashInviteToken (asString token))) =
        .ok (found.map Invite.view, .empty, seen) := by
    have hbyHash := byHash_shown h (encodable_of_storable hstorable) hrows
    simp only [Invites.exec, apply_empty, security_hashInviteToken hhash, hbyHash]
  have hnothing := shows_empty h
  cases found with
  | none =>
      cases haccept
      exact ⟨_, Runs.bind (Runs.request hread) (.pure ..), hnothing⟩
  | some invite =>
      have hmem : invite ∈ db₂.invites := by
        have hfound : invite ∈ (some invite).toList := List.mem_singleton_self invite
        rw [hrows] at hfound
        exact (List.mem_filter.mp hfound).1
      have hkey (inv : Invite) (hinv : inv ∈ db₂.invites) (hid : inv.id = invite.id) :
          inv.orgId = invite.orgId := by rw [List.inj_on_of_nodup_map hids hinv hmem hid]
      have hlowers : lib.security.lower invite.view.email ≠
            lib.security.lower (acceptCall draw email password).email ↔
          lib.lower invite.email.val ≠ lib.lower email :=
        not_congr (security_lower_inj hlower (encodable_of_storable invite.email.2) hemail)
      dsimp only at haccept
      by_cases hclosed : (invite.acceptedAt.isSome || invite.expiresAt ≤ draw.now) = true
      · rw [if_pos hclosed] at haccept
        replace hclosed : (invite.view.acceptedAt.isSome ||
          invite.view.expiresAt ≤ (acceptCall draw email password).now) = true := hclosed
        cases haccept
        refine ⟨_, Runs.bind (Runs.request hread) ?_, hnothing⟩
        dsimp only [Option.map_some]
        rw [if_pos hclosed]
        exact .pure ..
      · rw [if_neg hclosed] at haccept
        replace hclosed : ¬(invite.view.acceptedAt.isSome ||
          invite.view.expiresAt ≤ (acceptCall draw email password).now) = true := hclosed
        by_cases hother : lib.lower invite.email.val ≠ lib.lower email
        · rw [if_pos hother] at haccept
          cases haccept
          refine ⟨_, Runs.bind (Runs.request hread) ?_, hnothing⟩
          dsimp only [Option.map_some]
          rw [if_neg hclosed, if_pos (hlowers.mpr hother)]
          exact .pure ..
        · rw [if_neg hother] at haccept
          have hopen : invite.acceptedAt = none := by
            rw [Bool.or_eq_true, not_or] at hclosed
            simpa [Invite.view] using hclosed.1
          suffices hrest : ∃ w, Runs Invites.store () _ .empty seen
              (.ok (a.map Accepted.view)) w seen ∧ db₁.Shows (w.apply seen) by
            obtain ⟨w, hrun, hshows⟩ := hrest
            refine ⟨w, Runs.bind (Runs.request hread) ?_, hshows⟩
            dsimp only [Option.map_some]
            rw [if_neg hclosed, if_neg (mt hlowers.mp hother)]
            exact hrun
          refine acceptOpenInvite_runs hlower (fun _ => rfl) (fun hvalid => ?_) hmem hkey hopen
            hemail hpassword h haccept
          exact hvalid ▸ rfl

/-- After any run of the services, whatever an acceptance returns the transaction returns, when
neither the email nor the password has a lone surrogate. -/
theorem acceptInvite_shown (hlower : ∀ s : PyStr, s.Encodable → (lib.lower s).Encodable)
    (calls : List (Drawn × Call)) (hids : db.InviteIdsUnique) (hemail : email.Encodable)
    (hpassword : password.Encodable) (h : (runCalls lib srv calls db).Shows seen)
    (haccept : acceptInvite lib srv draw token email password (runCalls lib srv calls db) =
      (.ok a, db₁)) :
    ∃ seen₁, Invites.store.serial
        (Invites.acceptInvite lib.security (asString token) (acceptCall draw email password)) ()
        seen = (.ok (a.map Accepted.view), seen₁) ∧
      db₁.Shows seen₁ := by
  obtain ⟨w, hrun, hshows⟩ := acceptInvite_runs hlower (runCalls_inviteIdsUnique calls hids) hemail
    hpassword h haccept
  exact ⟨w.apply seen, hrun.serial_ok, hshows⟩

end Call

end Crashlens.Tenant
