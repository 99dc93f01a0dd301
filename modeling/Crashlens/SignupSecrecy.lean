import Crashlens.ApiRuns
import Crashlens.Storable

/-!
# What a signup gives away

The answer to a signup has the same shape whether the email is new or has an account, so that it
tells nobody which emails have accounts, unless the name of the organisation has a NUL, which a
column of text cannot take: that is noticed only where an account is opened. A lone surrogate, which
no column takes either, is noticed in both cases, since the answer cannot be encoded. The token in
the answer to an email that is taken names a user who is never stored; it opens nothing, then or
later.
-/

namespace Crashlens.Api

open Transactional RowSecurity
open Tenant (Libraries ServiceError User Drawn)

/-- No statement fails for a reason of its own. -/
structure Host.Quiet (host : Host) : Prop where
  accounts : ∀ scope q s, host.fault scope q s = none
  tables : ∀ scope q db, host.srv.fault scope q db = none

/-- The email has an account. -/
def Instance.Registered (s : Instance) (email : PyStr) : Prop :=
  ∃ u ∈ s.db.users, u.email.val = email

/-! ## Slugs -/

section Slugs

variable {draw : NewAccount}

/-- A character that a substitution keeps was not matched. -/
theorem mem_substitute_unmatched {matched : Option CodePoint → PyStr → ℕ} {rep : PyStr}
    {prev : Option CodePoint} {skip : ℕ} {s : PyStr} {c : CodePoint}
    (h : c ∈ substitute matched rep prev skip s) :
    c ∈ rep ∨ ∃ prev rest, matched prev (c :: rest) = 0 := by
  induction s generalizing prev skip with
  | nil => cases skip <;> cases h
  | cons d s ih =>
      cases skip with
      | succ skip => exact ih h
      | zero =>
          rw [substitute] at h
          split at h
          · next hzero =>
              rcases List.mem_cons.mp h with rfl | h
              · exact .inr ⟨prev, s, hzero⟩
              · exact ih h
          · rcases List.mem_append.mp h with h | h
            · exact .inl h
            · exact ih h

theorem slugChar_storable {c : CodePoint} (h : Tenant.isSlugChar c = true) :
    c.storable = true := by
  simp only [Tenant.isSlugChar, Bool.or_eq_true, Bool.and_eq_true, decide_eq_true_eq] at h
  simp only [CodePoint.storable, CodePoint.isSurrogate, Bool.and_eq_true, bne_iff_ne, ne_eq,
    Bool.not_eq_true', Bool.and_eq_false_iff, decide_eq_false_iff_not, not_le]
  omega

theorem makeOrgSlug_storable (lib : Libraries) (orgName : PyStr)
    (htoken : draw.token.storable = true) :
    (makeOrgSlug lib draw orgName).storable = true := by
  have hbase : ∀ s : PyStr, (strip (fun c => c = Tenant.dash)
      (substitute Tenant.slugGap (py "-") none 0 s)).storable = true := by
    intro s
    refine storable_iff.mpr fun c hc => ?_
    have hmem : c ∈ substitute Tenant.slugGap (py "-") none 0 s := by
      have hrev := List.mem_reverse.mp hc
      have hdrop := (List.dropWhile_sublist _).mem hrev
      exact (List.dropWhile_sublist _).mem (List.mem_reverse.mp hdrop)
    obtain hdash | ⟨prev, rest, hgap⟩ := mem_substitute_unmatched hmem
    · exact storable_iff.mp (by decide : (py "-").storable = true) c hdash
    · refine slugChar_storable ?_
      by_contra hno
      rw [Tenant.slugGap, List.takeWhile_cons_of_pos (by simpa using hno)] at hgap
      cases hgap
  refine storable_append (storable_append ?_ (by decide)) ?_
  · refine storable_of_subset (t := if _ then _ else _) ?_ fun c hc => List.mem_of_mem_take hc
    split_ifs
    · decide
    · exact hbase _
  · exact storable_of_subset htoken fun c hc => List.mem_of_mem_take hc

end Slugs

/-! ## Answers -/

section Answers

variable {lib : Libraries} {host : Host} {s : Instance} {draw placeholder : NewAccount}
  {email password passwordHash orgName : PyStr}

theorem bindText_storable {s : PyStr} (h : s.storable = true) :
    ∃ t : Text, t.val = s ∧ Tenant.bindText s = .ok t := by
  refine ⟨⟨s, h⟩, rfl, ?_⟩
  rw [Tenant.bindText, Text.ofPyStr?, dif_pos h]

theorem bindText_unstorable {t : PyStr} (h : ¬t.storable = true) :
    Tenant.bindText t = .error .dataError := by
  rw [Tenant.bindText, Text.ofPyStr?, dif_neg h]

theorem at_most_one {users : List User} (h : (users.map User.email).Nodup) (t : Text) :
    (users.filter fun u => u.email = t) = [] ∨ ∃ u, (users.filter fun u => u.email = t) = [u] := by
  match hrows : users.filter fun u => u.email = t with
  | [] => exact .inl hrows
  | [u] => exact .inr ⟨u, hrows⟩
  | u :: u' :: rest =>
      have hemail : ∀ row ∈ users.filter fun u => u.email = t, row.email = t :=
        fun row hrow => by simpa using (List.mem_filter.mp hrow).2
      have hnodup : ((users.filter fun u => u.email = t).map User.email).Nodup :=
        h.sublist (List.Sublist.map User.email List.filter_sublist)
      rw [hrows] at hemail hnodup
      have hu : u.email = t := hemail u (by simp)
      have hu' : u'.email = t := hemail u' (by simp)
      simp [hu, hu'] at hnodup

theorem registered_iff {t : Text} (ht : t.val = email) :
    s.Registered email ↔ (s.db.users.filter fun u => u.email = t) ≠ [] := by
  constructor
  · rintro ⟨u, hu, heq⟩
    have hkey : u.email = t := Subtype.ext (heq.trans ht.symm)
    exact List.ne_nil_of_mem (List.mem_filter.mpr ⟨hu, decide_eq_true hkey⟩)
  · intro hne
    obtain ⟨u, hmem⟩ := List.exists_mem_of_ne_nil _ hne
    obtain ⟨hu, heq⟩ := List.mem_filter.mp hmem
    have hkey : u.email = t := of_decide_eq_true heq
    exact ⟨u, hu, hkey ▸ ht⟩

/-- Emails are unique, so that looking one up finds its user or no one. -/
theorem loadUserByEmail_quiet (hquiet : host.Quiet) (hdb : s.db.Sound)
    (hemail : email.storable = true) :
    ∃ found, (Tenant.loadUserByEmail host.srv email s.db).1 = .ok found ∧
      (found.isSome = true ↔ s.Registered email) := by
  obtain ⟨t, ht, hbind⟩ := bindText_storable hemail
  have hexec : Tenant.exec host.srv .unset (.selectUser email) s.db =
      (.ok (s.db.users.filter fun u => u.email = t), s.db) := by
    have hscope : ¬((Scope.unset : Scope ℕ) = .bypass ∧
        (Tenant.Request.selectUser email).bootstrap = false) := fun h => by cases h.1
    rw [Tenant.exec, hquiet.tables]
    simp only [if_neg hscope, Tenant.statement, hbind]
    rfl
  have hregistered : s.Registered email ↔ _ := registered_iff ht
  have hload : Tenant.loadUserByEmail host.srv email s.db =
      Tenant.session host.srv .unset ((Tenant.execute (.selectUser email)).bind
        Tenant.oneOrNone) s.db := rfl
  rw [hload, Tenant.session, Tenant.execute, Program.request_bind, Program.eval_call_ok hexec]
  obtain hnone | ⟨u, hone⟩ := at_most_one hdb.emails t
  · rw [hnone] at hregistered ⊢
    exact ⟨none, rfl, by simp [hregistered]⟩
  · rw [hone] at hregistered ⊢
    exact ⟨some u, rfl, by simp [hregistered]⟩

theorem exec_quiet (hquiet : host.Quiet) {orgId : ℕ} {q : Statement} :
    exec host (.tenant orgId) q s = match statement (.tenant orgId) s q with
      | .ok (r, s') => (.ok r, s')
      | .error e => (.error e, s) := by
  have hscope : ¬((Scope.tenant orgId : Scope ℕ) = .bypass ∧ q.bootstrap = false) :=
    fun h => by cases h.1
  rw [exec, hquiet.accounts]
  cases statement (.tenant orgId) s q with
  | ok out => exact if_neg hscope
  | error e => exact if_neg hscope

theorem exec_insertUser_quiet (orgId : ℕ) (isFirstUser : Bool) (hquiet : host.Quiet)
    (hemail : email.storable = true) (hhash : passwordHash.storable = true)
    (hnew : ∀ u ∈ s.db.users, u.id ≠ draw.userId) (hfree : ¬s.Registered email) :
    ∃ s', exec host (.tenant orgId) (.insertUser draw.userId email passwordHash isFirstUser) s =
      (.ok (), s') := by
  obtain ⟨t, ht, hbind⟩ := bindText_storable hemail
  obtain ⟨hash, -, hbindHash⟩ := bindText_storable hhash
  have hunique : (s.db.users.all fun u => u.id ≠ draw.userId && u.email ≠ t) = true := by
    refine List.all_eq_true.mpr fun u hu => Bool.and_eq_true_iff.mpr ⟨?_, ?_⟩
    · exact decide_eq_true (hnew u hu)
    · exact decide_eq_true fun heq => hfree ⟨u, hu, heq ▸ ht⟩
  rw [exec_quiet hquiet, statement, hbind, hbindHash]
  simp only [bind, Except.bind, Tenant.require, hunique, if_true]
  exact ⟨_, rfl⟩

/-- Another row may have the id or the slug. -/
theorem exec_insertOrg_quiet (s : Instance) (orgId : ℕ) {slug : PyStr} (hquiet : host.Quiet)
    (hname : orgName.storable = true) (hslug : slug.storable = true) :
    (∃ s', exec host (.tenant orgId) (.insertOrg orgId orgName slug) s = (.ok (), s')) ∨
      exec host (.tenant orgId) (.insertOrg orgId orgName slug) s =
        (.error .integrityError, s) := by
  obtain ⟨name, -, hbind⟩ := bindText_storable hname
  obtain ⟨slug', -, hbindSlug⟩ := bindText_storable hslug
  have hadmits : (Scope.tenant orgId).admits orgId = true := by simp [Scope.admits]
  rw [exec_quiet hquiet, statement, hbind, hbindSlug]
  simp only [bind, Except.bind, Tenant.permit, hadmits, if_true, Tenant.require]
  split_ifs
  · exact .inl ⟨_, rfl⟩
  · exact .inr rfl

theorem exec_insertOrg_unstorable (hquiet : host.Quiet) {orgId : ℕ} {slug : PyStr}
    (hname : ¬orgName.storable = true) :
    exec host (.tenant orgId) (.insertOrg orgId orgName slug) s = (.error .dataError, s) := by
  rw [exec_quiet hquiet, statement, bindText_unstorable hname]
  rfl

theorem exec_insertFounder_quiet (s : Instance) (orgId userId : ℕ) (hquiet : host.Quiet) :
    (∃ s', exec host (.tenant orgId) (.insertFounder orgId userId) s = (.ok (), s')) ∨
      exec host (.tenant orgId) (.insertFounder orgId userId) s = (.error .integrityError, s) := by
  have hadmits : (Scope.tenant orgId).admits orgId = true := by simp [Scope.admits]
  rw [exec_quiet hquiet, statement]
  simp only [bind, Except.bind, Tenant.permit, hadmits, if_true, Tenant.require]
  split_ifs
  · exact .inl ⟨_, rfl⟩
  all_goals exact .inr rfl

theorem register_ok {account : Account}
    (h : ((openAccount lib draw email passwordHash orgName).eval
      (exec host (.tenant draw.orgId)) s).1 = .ok account) :
    (register lib host draw email passwordHash orgName s).1 = .ok (some account) := by
  obtain ⟨s', heval⟩ : ∃ s', (openAccount lib draw email passwordHash orgName).eval
      (exec host (.tenant draw.orgId)) s = (.ok account, s') := ⟨_, Prod.ext h rfl⟩
  change (Action.orOnIntegrityError (Action.bind (Action.session _ _ _) _) none s).1 = _
  simp only [Action.orOnIntegrityError, Action.bind, Action.session, Program.transact, heval]
  rfl

/-- `except IntegrityError: return None`, and any other error is raised. -/
theorem register_error {e : ServiceError}
    (h : ((openAccount lib draw email passwordHash orgName).eval
      (exec host (.tenant draw.orgId)) s).1 = .error e) :
    (register lib host draw email passwordHash orgName s).1 =
      if e = .integrityError then .ok none else .error e := by
  obtain ⟨s', heval⟩ : ∃ s', (openAccount lib draw email passwordHash orgName).eval
      (exec host (.tenant draw.orgId)) s = (.error e, s') := ⟨_, Prod.ext h rfl⟩
  change (Action.orOnIntegrityError (Action.bind (Action.session _ _ _) _) none s).1 = _
  simp only [Action.orOnIntegrityError, Action.bind, Action.session, Program.transact, heval]
  cases e
  all_goals rfl

/-- An account is opened, or another signup has won, unless the name cannot be stored. -/
theorem openAccount_quiet (lib : Libraries) (orgName : PyStr) (hquiet : host.Quiet)
    (hemail : email.storable = true) (hhash : passwordHash.storable = true)
    (htoken : draw.token.storable = true)
    (hnew : ∀ u ∈ s.db.users, u.id ≠ draw.userId) (hfree : ¬s.Registered email) :
    let outcome := ((openAccount lib draw email passwordHash orgName).eval
      (exec host (.tenant draw.orgId)) s).1
    (orgName.storable = true → outcome = .error .integrityError ∨ ∃ isInstanceAdmin,
      outcome = .ok ⟨draw.userId, email, draw.orgId, orgName, makeOrgSlug lib draw orgName, .admin,
        isInstanceAdmin⟩) ∧
    (¬orgName.storable = true → outcome = .error .dataError) := by
  have hfirst : exec host (.tenant draw.orgId) .usersExist s = (.ok (!s.db.users.isEmpty), s) := by
    rw [exec_quiet hquiet, statement]
  obtain ⟨s₁, huser⟩ :=
    exec_insertUser_quiet draw.orgId (!!s.db.users.isEmpty) hquiet hemail hhash hnew hfree
  have hprogram : openAccount lib draw email passwordHash orgName =
      .call .usersExist fun exist =>
      .call (.insertUser draw.userId email passwordHash !exist) fun _ =>
      .call (.insertOrg draw.orgId orgName (makeOrgSlug lib draw orgName)) fun _ =>
      .call (.insertFounder draw.orgId draw.userId) fun _ =>
      .pure ⟨draw.userId, email, draw.orgId, orgName, makeOrgSlug lib draw orgName, .admin,
        !exist⟩ := rfl
  dsimp only
  rw [hprogram, Program.eval_call_ok hfirst, Program.eval_call_ok huser]
  constructor
  · intro hname
    obtain ⟨s₂, horg⟩ | hclash := exec_insertOrg_quiet s₁ draw.orgId hquiet hname
      (makeOrgSlug_storable lib orgName htoken)
    · rw [Program.eval_call_ok horg]
      obtain ⟨s₃, hfounder⟩ | hclash := exec_insertFounder_quiet s₂ draw.orgId draw.userId hquiet
      · rw [Program.eval_call_ok hfounder]
        exact .inr ⟨_, rfl⟩
      · rw [Program.eval_call_error hclash]
        exact .inl rfl
    · rw [Program.eval_call_error hclash]
      exact .inl rfl
  · intro hname
    rw [Program.eval_call_error (exec_insertOrg_unstorable hquiet hname)]

theorem render_signedUp (lib : Libraries) (host : Host) (draw : NewAccount)
    (hemail : email.Encodable) : (signedUp lib host draw email orgName).render =
      if orgName.all fun c => !c.isSurrogate then signedUp lib host draw email orgName
      else .serverError := by
  have hall : (email.all fun c => !c.isSurrogate) = true :=
    List.all_eq_true.mpr fun c hc => by rw [hemail c hc, Bool.not_false]
  have htexts : (signedUp lib host draw email orgName).texts = [email, orgName] := rfl
  rw [Response.render, htexts, List.all_cons, List.all_cons, List.all_nil, hall, Bool.true_and,
    Bool.and_true]

theorem render_signedUp_ok (lib : Libraries) (host : Host) (draw : NewAccount)
    (hemail : email.Encodable) (hname : orgName.Encodable) :
    (signedUp lib host draw email orgName).render = signedUp lib host draw email orgName := by
  rw [render_signedUp lib host draw hemail, if_pos]
  exact List.all_eq_true.mpr fun c hc => by rw [hname c hc, Bool.not_false]

theorem render_signedUp_error (lib : Libraries) (host : Host) (draw : NewAccount)
    (hemail : email.Encodable) (hname : ¬ orgName.Encodable) :
    (signedUp lib host draw email orgName).render = .serverError := by
  rw [render_signedUp lib host draw hemail, if_neg]
  exact fun h => hname fun c hc => by simpa using List.all_eq_true.mp h c hc

/-- Whether the email has an account or not, the answer is that of a new account, with ids that are
drawn for it, as long as the name of the organisation can be stored. One with a lone surrogate gets
a server error for every email, and one with a NUL for an email that has no account. -/
theorem signup_tells_nothing_iff (inputs : List Input) (draw placeholder : NewAccount)
    (email password orgName passwordHash : PyStr) (hquiet : host.Quiet)
    (hpolicy : Tenant.validatePassword lib password = none)
    (hpassword : lib.hashPassword password = .ok passwordHash)
    (hhash : passwordHash.storable = true) (hemail : email.storable = true)
    (htoken : draw.token.storable = true)
    (hnew : ∀ u ∈ (run lib inputs).inst.db.users, u.id ≠ draw.userId) :
    let s := (run lib inputs).inst
    let answer := (signupRoute lib host draw placeholder email password orgName s).1
    ((∃ d ∈ [draw, placeholder], answer = signedUp lib host d email orgName) ↔
        orgName.storable = true ∨ s.Registered email ∧ orgName.Encodable) ∧
      (¬(orgName.storable = true ∨ s.Registered email ∧ orgName.Encodable) →
        answer = .serverError) := by
  dsimp only
  have hdb := (run_sound lib inputs).tables
  have hencodable : email.Encodable := encodable_of_storable hemail
  obtain ⟨found, hfound, hregistered⟩ := loadUserByEmail_quiet hquiet hdb hemail
  have hhashed : Tenant.ofPython (lib.hashPassword password) = .ok passwordHash := by
    rw [hpassword]
    rfl
  have hanswer : (signupRoute lib host draw placeholder email password orgName
      (run lib inputs).inst).1 = (signupAnswer lib host placeholder email orgName
        (signup lib host draw email password orgName (run lib inputs).inst).1).render := by
    rw [signupRoute, hpolicy]
  -- An answer of either kind settles both halves.
  have hshape {P : Prop} {answer : Response} {d : NewAccount} (hd : d ∈ [draw, placeholder])
      (hok : answer = signedUp lib host d email orgName) (hP : P) :
      ((∃ d ∈ [draw, placeholder], answer = signedUp lib host d email orgName) ↔ P) ∧
        (¬P → answer = .serverError) := ⟨iff_of_true ⟨d, hd, hok⟩ hP, fun h => absurd hP h⟩
  have hfailed {P : Prop} {answer : Response} (herror : answer = .serverError) (hP : ¬P) :
      ((∃ d ∈ [draw, placeholder], answer = signedUp lib host d email orgName) ↔ P) ∧
        (¬P → answer = .serverError) := by
    refine ⟨iff_of_false ?_ hP, fun _ => herror⟩
    rintro ⟨d, -, h⟩
    cases herror.symm.trans h
  rw [hanswer, signup_eq, hfound, hhashed]
  cases found with
  | some existing =>
      have htaken : (run lib inputs).inst.Registered email := hregistered.mp rfl
      by_cases hname : orgName.Encodable
      · exact hshape (List.mem_cons_of_mem draw (List.mem_singleton_self placeholder))
          (render_signedUp_ok lib host placeholder hencodable hname) (.inr ⟨htaken, hname⟩)
      · exact hfailed (render_signedUp_error lib host placeholder hencodable hname) fun h =>
          h.elim (fun hstored => hname (encodable_of_storable hstored)) fun h => hname h.2
  | none =>
      have hfree : ¬(run lib inputs).inst.Registered email := fun h => by
        cases hregistered.mpr h
      obtain ⟨hstorable, hunstorable⟩ := openAccount_quiet lib orgName hquiet hemail hhash htoken
        hnew hfree
      dsimp only
      by_cases hname : orgName.storable = true
      · have hrendered (d : NewAccount) :=
          render_signedUp_ok lib host d hencodable (encodable_of_storable hname)
        obtain hclash | ⟨isInstanceAdmin, hok⟩ := hstorable hname
        · rw [register_error hclash]
          exact hshape (List.mem_cons_of_mem draw (List.mem_singleton_self placeholder))
            (hrendered placeholder) (.inl hname)
        · rw [register_ok hok]
          exact hshape List.mem_cons_self (hrendered draw) (.inl hname)
      · rw [register_error (hunstorable hname)]
        exact hfailed rfl fun h => h.elim hname fun h => hfree h.1

/-- A quiet database; the token of a user is the uuid. -/
def sampleHost : Host :=
  ⟨Tenant.sampleServer, fun _ _ _ => none, uuidStr, uuidOf Tenant.sampleLibraries⟩

def newcomer (userId orgId : ℕ) : NewAccount := ⟨userId, orgId, py "0123456789"⟩

/-- Someone with an account signs up again, with a NUL for the name. -/
theorem second_signup_tells_nothing :
    let inputs := [.arrive sampleHost (.signup (newcomer 3 1) (newcomer 4 2) (py "m@x.io")
      (py "hunter2hunter2") (py "Acme")), .resume sampleHost 0]
    let s := (run Tenant.sampleLibraries inputs).inst
    let answer := (signupRoute Tenant.sampleLibraries sampleHost (newcomer 5 6) (newcomer 7 8)
      (py "m@x.io") (py "hunter2hunter2") [0] s).1
    ((∃ d ∈ [newcomer 5 6, newcomer 7 8], answer =
          signedUp Tenant.sampleLibraries sampleHost d (py "m@x.io") [0]) ↔
        PyStr.storable [0] = true ∨ s.Registered (py "m@x.io") ∧ PyStr.Encodable [0]) ∧
      (¬(PyStr.storable [0] = true ∨ s.Registered (py "m@x.io") ∧ PyStr.Encodable [0]) →
        answer = .serverError) :=
  signup_tells_nothing_iff _ (newcomer 5 6) (newcomer 7 8) (py "m@x.io") (py "hunter2hunter2") [0]
    (py "hunter2hunter2") ⟨fun _ _ _ => rfl, fun _ _ _ => rfl⟩ (by decide +kernel) rfl
    (by decide +kernel) (by decide +kernel) (by decide +kernel) (by decide +kernel)

end Answers

/-! ## Tokens of users who are never stored -/

section Inert

variable {lib : Libraries} {host : Host} {s : Instance} {task : Task} {userId : ℕ}

/-- The ids that the request may give to a new user. -/
def Request.newUsers : Request → List ℕ
  | .org _ _ _ _ => []
  | .acceptInvite draw _ _ _ => [draw.id]
  | .signup draw _ _ _ _ => [draw.userId]

def Task.newUsers : Task → List ℕ
  | .handle _ _ _ => []
  | .redeem draw _ _ _ _ => [draw.id]
  | .grant _ _ _ _ _ userId passwordHash => if passwordHash.isSome then [userId] else []
  | .openAccount draw _ _ _ _ => [draw.userId]

def Input.newUsers : Input → List ℕ
  | .arrive _ request => request.newUsers
  | .resume _ _ => []

def Absent (userId : ℕ) (db : Tenant.Db) : Prop := ∀ u ∈ db.users, u.id ≠ userId

/-- The id is no user's, and no request is about to make it one's. -/
structure State.Absent (userId : ℕ) (s : State) : Prop where
  users : Api.Absent userId s.inst.db
  pending : ∀ task ∈ s.pending, userId ∉ task.newUsers

/-- A statement that inserts no such user keeps the id absent. -/
theorem absent_statements {srv : Tenant.Server} : Tenant.StatementsKeep srv
    (fun q => ∀ email hash, q ≠ .insertUser userId email hash) (Absent userId) := by
  intro scope q db r db' hq hexec habsent u hu
  obtain hold | ⟨email, hash, rfl⟩ := (Tenant.accountWrites_exec hexec).users u hu
  · exact habsent u hold
  · rintro rfl
    exact hq email hash rfl

theorem handle_absent {draw : Drawn} {ctx : OrgContext} {route : Route}
    (habsent : Absent userId s.db) : Absent userId (route.handle lib host draw ctx s).2.db := by
  unfold Route.handle
  split
  · exact habsent
  · next call hcall =>
      have hmade := (routeCall_madeBy hcall).1
      refine Tenant.call_keeps (fun scope q db r db' hq hexec => ?_) s.db habsent
      refine absent_statements scope q db r db' ?_ hexec
      rintro email hash rfl
      cases call with
      | acceptInvite => cases hmade
      | _ => cases hq

theorem grant_absent {draw : Drawn} {db : Tenant.Db} {invite : Tenant.Invite} {email : PyStr}
    {newId : ℕ} {passwordHash : Option PyStr} (hnew : passwordHash.isSome = true → newId ≠ userId)
    (habsent : Absent userId db) :
    Absent userId (Tenant.grant lib host.srv draw invite email newId passwordHash db).2 := by
  refine Tenant.keeps_session_of_issuesOnly absent_statements ?_ db habsent
  refine Program.issuesOnly_bind (Tenant.issuesOnly_insertNewUser fun hash hhash => ?_) fun _ => ?_
  · rintro email' hash' heq
    cases heq
    exact hnew (by rw [hhash]; rfl) rfl
  refine Program.issuesOnly_bind (Tenant.issuesOnly_execute (by simp)) fun _ => ?_
  refine Program.issuesOnly_bind (Tenant.issuesOnly_execute (by simp)) fun _ => ?_
  exact Tenant.issuesOnly_recorded fun _ => by simp

theorem identify_newUsers {draw : Drawn} {db : Tenant.Db} {email password : PyStr} {newId : ℕ}
    {passwordHash : Option PyStr}
    (h : (identify lib host draw email password db).1 = .ok (some (newId, passwordHash))) :
    passwordHash.isSome = true → newId = draw.id := by
  obtain ⟨found, db₁, -, h⟩ := Tenant.Service.bind_ok (Prod.ext h rfl)
  cases found with
  | some existing =>
      obtain ⟨verified, -, h⟩ := Tenant.Service.ofExcept_bind_ok h
      cases verified with
      | true =>
          cases h
          exact fun hsome => by cases hsome
      | false => cases h
  | none =>
      dsimp only at h
      cases hpolicy : Tenant.validatePassword lib password with
      | some message =>
          rw [hpolicy] at h
          cases h
      | none =>
          rw [hpolicy] at h
          obtain ⟨hash, -, h⟩ := Tenant.Service.ofExcept_bind_ok h
          cases h
          exact fun _ => rfl

theorem begin_newUsers {request : Request} (h : request.begin lib host s = .ok task) :
    task.newUsers ⊆ request.newUsers := by
  cases request with
  | org draw credentials orgId route =>
      simp only [Request.begin] at h
      split at h
      all_goals cases h
      exact List.Subset.refl _
  | acceptInvite draw token email password =>
      simp only [Request.begin] at h
      split at h
      all_goals cases h
      exact List.Subset.refl _
  | signup draw placeholder email password orgName =>
      simp only [Request.begin] at h
      split at h
      · cases h
      · split at h
        all_goals cases h
        exact List.Subset.refl _

theorem resume_absent (lib : Libraries) (host : Host) (habsent : Absent userId s.db)
    (htask : userId ∉ task.newUsers) :
    Absent userId (task.resume lib host s).2.db ∧
      ∀ next, (task.resume lib host s).1 = .ok next → userId ∉ next.newUsers := by
  cases task with
  | handle draw ctx route => exact ⟨handle_absent habsent, fun next h => by cases h⟩
  | redeem draw token email password invite =>
      simp only [Task.resume]
      split
      · next newId passwordHash hfound =>
          refine ⟨habsent, fun next h => ?_⟩
          cases h
          simp only [Task.newUsers]
          split_ifs with hsome
          · rw [identify_newUsers hfound hsome]
            exact htask
          · exact List.not_mem_nil
      · exact ⟨habsent, fun next h => by cases h⟩
      · exact ⟨habsent, fun next h => by cases h⟩
  | grant draw token email password invite newId passwordHash =>
      refine ⟨grant_absent (fun hsome heq => htask ?_) habsent, fun next h => by cases h⟩
      simp [Task.newUsers, hsome, heq]
  | openAccount draw placeholder email passwordHash orgName =>
      refine ⟨?_, fun next h => by cases h⟩
      have hcases : (register lib host draw email passwordHash orgName s).2 = s ∨
          Opened draw s.db (register lib host draw email passwordHash orgName s).2.db :=
        register_cases
      obtain hsame | ⟨user, hid, -, -, htables⟩ := hcases
      · exact (congrArg Instance.db hsame).symm ▸ habsent
      · change Absent userId (register lib host draw email passwordHash orgName s).2.db
        rw [htables]
        intro u hu
        obtain hold | hnew := List.mem_append.mp hu
        · exact habsent u hold
        · rw [List.mem_singleton.mp hnew, hid]
          exact fun heq => htask (by simp [Task.newUsers, heq])

theorem settle_absent {pending : List Task} {outcome : Except Response Task × Instance}
    (habsent : Absent userId outcome.2.db) (hpending : ∀ task ∈ pending, userId ∉ task.newUsers)
    (hnext : ∀ task, outcome.1 = .ok task → userId ∉ task.newUsers) :
    (settle pending outcome).2.Absent userId := by
  match outcome with
  | (.error response, inst) => exact ⟨habsent, hpending⟩
  | (.ok next, inst) =>
      refine ⟨habsent, fun task htask => ?_⟩
      obtain hold | hnew := List.mem_append.mp htask
      · exact hpending task hold
      · rw [List.mem_singleton.mp hnew]
        exact hnext next rfl

theorem step_absent {s : State} {input : Input} (hs : s.Absent userId)
    (hnew : userId ∉ input.newUsers) : (step lib s input).2.Absent userId := by
  cases input with
  | arrive host request =>
      exact settle_absent hs.users hs.pending fun task htask hmem =>
        hnew (begin_newUsers htask hmem)
  | resume host index =>
      simp only [step]
      cases hindex : s.pending[index]? with
      | none => exact hs
      | some task =>
          obtain ⟨habsent, hnext⟩ :=
            resume_absent lib host hs.users (hs.pending task (List.mem_of_getElem? hindex))
          exact settle_absent habsent
            (fun other hother => hs.pending other (List.mem_of_mem_eraseIdx hother)) hnext

theorem run_absent {inputs : List Input} (hnew : ∀ input ∈ inputs, userId ∉ input.newUsers)
    {s : State} (hs : s.Absent userId) : (Mealy.final (step lib) s inputs).Absent userId := by
  induction inputs generalizing s with
  | nil => exact hs
  | cons input inputs ih =>
      exact ih (fun later hlater => hnew later (List.mem_cons_of_mem input hlater))
        (step_absent hs (hnew input List.mem_cons_self))

theorem loadUserById_absent (habsent : Absent userId s.db) {user : User} :
    (loadUserById host userId s).1 ≠ .ok (some user) := by
  have hbody : Program.Ensures (exec host .unset) (fun found _ => found = none)
      ((execute (.userById userId)).bind oneOrNone) s := by
    refine ⟨trivial, fun users s' hexec => ?_⟩
    obtain ⟨rfl, -⟩ := Prod.mk.inj (Except.ok.inj (exec_ok hexec))
    have hnone : (s.db.users.filter fun u => u.id = userId) = [] :=
      List.filter_eq_nil_iff.mpr fun u hu => by simpa using habsent u hu
    rw [hnone]
    rfl
  intro h
  obtain ⟨e, hs⟩ | ⟨found, s', hs, rfl⟩ := Program.transact_cases hbody
  · cases (congrArg Prod.fst hs).symm.trans h
  · cases (congrArg Prod.fst hs).symm.trans h

theorem getCurrentUser_absent {token : PyStr} (habsent : Absent userId s.db)
    (hdecode : host.decodeAccessToken token = some userId) (user : User) :
    getCurrentUser host (some token) s ≠ .ok user := by
  simp only [getCurrentUser, hdecode]
  split
  · intro h
    cases h
  · intro h
    cases h
  · next user' hload => exact absurd hload (loadUserById_absent habsent)

theorem fresh_absent : fresh.Absent userId := ⟨by simp [Absent, fresh], by simp [fresh]⟩

theorem admit_absent {token : PyStr} {orgId : ℕ} {route : Route} {ctx : OrgContext}
    (hdecode : host.decodeAccessToken token = some userId) (habsent : Absent userId s.db) :
    route.admit host (some token) orgId s ≠ .ok ctx := by
  intro h
  unfold Route.admit at h
  split at h
  · obtain ⟨user, huser, -⟩ := bind_ok h
    exact getCurrentUser_absent habsent hdecode user huser
  · obtain ⟨user, huser, -⟩ := bind_ok h
    exact getCurrentUser_absent habsent hdecode user huser

/-- The token of an id that no request has ever given to a new user is refused everywhere. -/
theorem unstored_token_opens_nothing (inputs : List Input) (host : Host) (token : PyStr)
    (userId : ℕ) (hdecode : host.decodeAccessToken token = some userId)
    (hnew : ∀ input ∈ inputs, userId ∉ input.newUsers) (orgId : ℕ) (route : Route)
    (ctx : OrgContext) :
    route.admit host (some token) orgId (run lib inputs).inst ≠ .ok ctx :=
  admit_absent hdecode (run_absent hnew fresh_absent).users

/-- The second signup of an email is answered with the token of an id that no one gets. -/
theorem second_token_opens_nothing :
    let signup draw placeholder := Input.arrive sampleHost (.signup draw placeholder (py "m@x.io")
      (py "hunter2hunter2") (py "Acme"))
    let inputs := [signup (newcomer 3 1) (newcomer 4 2), .resume sampleHost 0,
      signup (newcomer 5 6) (newcomer 7 8)]
    ∀ orgId route ctx, Route.admit sampleHost (some (uuidStr 7)) orgId route
      (run Tenant.sampleLibraries inputs).inst ≠ .ok ctx :=
  fun orgId route ctx => unstored_token_opens_nothing _ sampleHost (uuidStr 7) 7
    (by decide +kernel) (by decide) orgId route ctx

/-- An answer in the first session comes from an email that is taken; its token is that of the
placeholder. -/
theorem begin_signup_token {draw placeholder : NewAccount}
    {email password orgName token email' name slug : PyStr} {newId newOrg : ℕ}
    {role : Tenant.MemberRole}
    (h : (Request.signup draw placeholder email password orgName).begin lib host s =
      .error (.ok 201 (.signedUp token newId email' newOrg name slug role))) :
    token = host.createAccessToken placeholder.userId := by
  simp only [Request.begin] at h
  split at h
  · cases h
  · split at h
    · cases h
    · rw [Response.render] at h
      split_ifs at h
      · cases h
        rfl
      · cases h
    · cases h

/-- The token in the answer to an email that is taken is refused everywhere, in every run in which
no request gives the id of the placeholder to a new user. -/
theorem placeholder_token_opens_nothing (before after : List Input) {host : Host}
    {draw placeholder : NewAccount} {email password orgName token email' name slug : PyStr}
    {newId newOrg : ℕ} {role : Tenant.MemberRole}
    (hround : ∀ id, host.decodeAccessToken (host.createAccessToken id) = some id)
    (hanswer :
      (Request.signup draw placeholder email password orgName).begin lib host
          (run lib before).inst =
        .error (.ok 201 (.signedUp token newId email' newOrg name slug role)))
    (hnew : ∀ input ∈ before ++ .arrive host (.signup draw placeholder email password orgName) ::
      after, placeholder.userId ∉ input.newUsers) (orgId : ℕ) (route : Route) (ctx : OrgContext) :
    route.admit host (some token) orgId (run lib (before ++
      .arrive host (.signup draw placeholder email password orgName) :: after)).inst ≠ .ok ctx := by
  rw [begin_signup_token hanswer]
  exact admit_absent (hround _) (run_absent hnew fresh_absent).users

end Inert

end Crashlens.Api
