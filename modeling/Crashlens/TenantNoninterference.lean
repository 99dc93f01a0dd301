import Crashlens.Library.Mealy
import Crashlens.ServiceStatements
import Crashlens.TenantViews
import Mathlib.Tactic.FinCases

/-!
# Organisations do not interfere

What an organisation gets from the services, and what it finds in its tables, is the same whether
the other organisations use theirs or not. Accounts are the exception: users belong to nobody and an
invite is found by its token alone, so invites and their acceptance are seen by everyone. The rules
below follow two runs of a service side by side, from states that look the same to its organisation
(`Together`); a call of another organisation is compared with no call at all.
-/

namespace Crashlens.Tenant

open Transactional RowSecurity

/-- Run from both states, the session gets the same answers. -/
def Couples {α : Type} (srv : Server) (scope : Scope ℕ) (body : Tx α) (db db' : Db)
    (post : α → Db → Db → Prop) : Prop :=
  body.Coupled (exec srv scope) post db db'

section Sessions

variable {srv : Server} {scope : Scope ℕ} {db db' : Db} {α β : Type} {post : α → Db → Db → Prop}

theorem couples_pure {a : α} (h : post a db db') : Couples srv scope (.pure a) db db' post := h

theorem couples_raise {e : ServiceError} : Couples srv scope (.raise e) db db' post := trivial

theorem couples_execute (hsrv : srv.Oblivious) {q : Request} {next : Response q → Tx α}
    {found : Response q → Db → Db → Prop}
    (hq : SameStatement found (statement srv scope db q) (statement srv scope db' q))
    (h : ∀ r t t', found r t t' → Couples srv scope (next r) t t' post) :
    Couples srv scope ((execute q).bind next) db db' post :=
  (sameOutcome_exec hsrv hq).mono h

theorem couples_bind {body : Tx β} {next : β → Tx α}
    (h : Couples srv scope body db db' fun b t t' => Couples srv scope (next b) t t' post) :
    Couples srv scope (body.bind next) db db' post := Program.coupled_bind h

theorem couples_oneOrNone {rows : List β} {next : Option β → Tx α}
    (hnone : Couples srv scope (next none) db db' post)
    (hsome : ∀ row ∈ rows, Couples srv scope (next (some row)) db db' post) :
    Couples srv scope ((oneOrNone rows).bind next) db db' post := by
  match rows with
  | [] => exact hnone
  | [row] => exact hsome row (List.mem_singleton_self row)
  | _ :: _ :: _ => exact couples_raise

theorem couples_one {rows : List β} {next : β → Tx α}
    (h : ∀ row, Couples srv scope (next row) db db' post) :
    Couples srv scope ((one rows).bind next) db db' post := by
  match rows with
  | [] => exact couples_raise
  | [row] => exact h row
  | _ :: _ :: _ => exact couples_raise

theorem couples_raiseError {x : Except ServiceError β} {next : β → Tx α}
    (h : ∀ b, Couples srv scope (next b) db db' post) :
    Couples srv scope ((raiseError x).bind next) db db' post := by
  cases x with
  | error e => exact couples_raise
  | ok b => exact h b

/-- From both states the service answers alike, and the states it leaves are related. -/
def Service.Agrees (m : Service α) (R : Db → Db → Prop) (db db' : Db) : Prop :=
  (m db).1 = (m db').1 ∧ R (m db).2 (m db').2

variable {R Q : Db → Db → Prop}

theorem agrees_pure {a : α} (h : R db db') : (Service.pure a).Agrees R db db' := ⟨rfl, h⟩

theorem agrees_raise {e : ServiceError} (h : R db db') :
    (Service.raise e : Service α).Agrees R db db' := ⟨rfl, h⟩

theorem Service.Agrees.mono {m : Service α} (h : m.Agrees Q db db') (hQ : ∀ t t', Q t t' → R t t') :
    m.Agrees R db db' := ⟨h.1, hQ _ _ h.2⟩

/-- A session that raises takes its statements back, in both runs. -/
theorem agrees_session {body : Tx α} (hdb : R db db')
    (h : Couples srv scope body db db' fun _ => R) :
    (session srv scope body).Agrees R db db' := by
  have hout := Program.eval_coupled h
  unfold Service.Agrees session
  generalize body.eval (exec srv scope) db = x at hout ⊢
  generalize body.eval (exec srv scope) db' = x' at hout ⊢
  cases hout with
  | ok h => exact ⟨rfl, h⟩
  | error => exact ⟨rfl, hdb⟩

theorem agrees_bind {m : Service β} {f : β → Service α} (hm : m.Agrees Q db db')
    (hQ : ∀ t t', Q t t' → R t t') (hf : ∀ b t t', Q t t' → (f b).Agrees R t t') :
    (m.bind f).Agrees R db db' := by
  obtain ⟨hanswer, hstates⟩ := hm
  unfold Service.Agrees Service.bind
  generalize m db = x at hanswer hstates ⊢
  generalize m db' = x' at hanswer hstates ⊢
  obtain ⟨a, t⟩ := x
  obtain ⟨a', t'⟩ := x'
  cases hanswer
  cases a with
  | error e => exact ⟨rfl, hQ t t' hstates⟩
  | ok b => exact hf b t t' hstates

/-- What is computed without the tables is the same in both runs. -/
theorem agrees_ofExcept {x : Except ServiceError β} {f : β → Service α} (hdb : R db db')
    (hf : ∀ b, (f b).Agrees R db db') : ((Service.ofExcept x).bind f).Agrees R db db' := by
  cases x with
  | error e => exact ⟨rfl, hdb⟩
  | ok b => exact hf b

theorem agrees_orOnIntegrityError {m : Service α} {default : α} (hm : m.Agrees R db db') :
    (m.orOnIntegrityError default).Agrees R db db' := by
  obtain ⟨hanswer, hstates⟩ := hm
  unfold Service.Agrees Service.orOnIntegrityError
  generalize m db = x at hanswer hstates ⊢
  generalize m db' = x' at hanswer hstates ⊢
  obtain ⟨a, t⟩ := x
  obtain ⟨a', t'⟩ := x'
  cases hanswer
  cases a with
  | error e => cases e <;> exact ⟨rfl, hstates⟩
  | ok b => exact ⟨rfl, hstates⟩

end Sessions

/-! ## The services of an organisation -/

section Services

variable {lib : Libraries} {srv : Server} {draw : Drawn} {ds rows : List Drawn} {acc : Accounts}
  {db db' : Db} {scope : Scope ℕ} {org owner : ℕ} {actor : Option ℕ} {α β : Type}
  {post : α → Db → Db → Prop}

theorem couples_record (hsrv : srv.Oblivious) (hdraw : ∀ d ∈ ds, Distinct d draw)
    {action targetType : String} {targetId : Option PyStr} {data : Option Dict} {next : Unit → Tx α}
    (h : Together org rows (draw :: ds) acc db db')
    (hnext : ∀ t t', Together org rows ds acc t t' → Couples srv scope (next ()) t t' post) :
    Couples srv scope ((record lib draw owner actor action targetType targetId data).bind next)
      db db' post := by
  refine couples_bind (couples_raiseError fun _ => ?_)
  exact couples_execute hsrv (same_insertAudit h hdraw rfl) fun _ t t' ht => hnext t t' ht

/-- The end of a session, whether the uuid of the new row has been used or not. -/
theorem couples_recorded (hsrv : srv.Oblivious) (hdraw : ∀ d ∈ ds, Distinct d draw)
    {action targetType : String} {targetId : Option PyStr} {data : Option Dict} {a : α}
    (hrows : ds ⊆ rows) (h : Together org rows (draw :: ds) acc db db') :
    Couples srv scope
      ((record lib draw owner actor action targetType targetId data).bind fun _ => .pure a)
      db db' fun _ => Together org ds ds acc :=
  couples_record hsrv hdraw h fun _ _ ht => couples_pure (ht.mono hrows (List.Subset.refl ds))

theorem couples_loadProjectRow (hsrv : srv.Oblivious) {audits : List Drawn} {projectId : ℕ}
    {next : Option Project → Tx α} (h : Together org rows audits acc db db')
    (hnone : ∀ t t', Together org rows audits acc t t' →
      Couples srv (.tenant org) (next none) t t' post)
    (hsome : ∀ row t t', Together org rows audits acc t t' → t.OwnsProject org projectId →
      Couples srv (.tenant org) (next (some row)) t t' post) :
    Couples srv (.tenant org) ((loadProjectRow projectId).bind next) db db' post := by
  refine couples_bind (couples_execute hsrv (same_selectProject h projectId) ?_)
  rintro found t t' ⟨ht, hown⟩
  match found, hown with
  | [], _ => exact hnone t t' ht
  | [row], hown => exact hsome row t t' ht (hown row (List.mem_singleton_self row)).1
  | _ :: _ :: _, _ => exact couples_raise

/-- The issue as `assign_issue` reads it afterwards. -/
theorem getIssue_agrees (hsrv : srv.Oblivious) {projectId issueId : ℕ}
    (h : Together org rows ds acc db db') :
    (getIssue srv org projectId issueId).Agrees (Together org rows ds acc) db db' := by
  refine agrees_session h (couples_loadProjectRow hsrv h ?_ ?_)
  · exact fun t t' ht => couples_pure ht
  · intro _ t t' ht _
    refine couples_execute hsrv (same_selectIssue ht issueId projectId) fun found t t' ht => ?_
    match found with
    | [] => exact couples_pure ht
    | [row] => exact couples_pure ht
    | _ :: _ :: _ => exact couples_raise

variable (hsrv : srv.Oblivious) (hdraw : ∀ d ∈ ds, Distinct d draw)
  (h : Together org (draw :: ds) (draw :: ds) acc db db')

include h in
theorem together_spent : Together org ds ds acc db db' :=
  h.mono (List.subset_cons_self draw ds) (List.subset_cons_self draw ds)

include hsrv hdraw h

theorem createProject_agrees {name : PyStr} {platform : Option PyStr} :
    (createProject lib srv draw org name platform actor).Agrees (Together org ds ds acc)
      db db' := by
  refine agrees_orOnIntegrityError (agrees_session (together_spent h) ?_)
  exact couples_execute hsrv (same_insertProject h hdraw name _ platform) fun _ t t' ht =>
    couples_recorded hsrv hdraw (List.Subset.refl ds) ht

theorem updateProjectSampling_agrees {projectId : ℕ} {samplingRate : PyFloat} :
    (updateProjectSampling lib srv draw org projectId samplingRate actor).Agrees
      (Together org ds ds acc) db db' := by
  refine agrees_session (together_spent h) ?_
  refine couples_execute hsrv (same_updateSampling h samplingRate projectId) fun found t t' ht => ?_
  refine couples_oneOrNone (couples_pure (together_spent ht)) fun row _ => ?_
  exact couples_recorded hsrv hdraw (List.subset_cons_self draw ds) ht

theorem deleteProject_agrees (hdb : db.Consistent) (hdb' : db'.Consistent) {projectId : ℕ} :
    (deleteProject lib srv draw org projectId actor).Agrees (Together org ds ds acc) db db' := by
  refine agrees_session (together_spent h) ?_
  refine couples_execute hsrv (same_deleteProject h hdb hdb' projectId) fun names t t' ht => ?_
  refine couples_oneOrNone (couples_pure (together_spent ht)) fun name _ => ?_
  exact couples_recorded hsrv hdraw (List.subset_cons_self draw ds) ht

theorem createDsnKey_agrees {projectId : ℕ} :
    (createDsnKey lib srv draw org projectId actor).Agrees (Together org ds ds acc) db db' := by
  refine agrees_session (together_spent h) (couples_loadProjectRow hsrv h ?_ ?_)
  · exact fun t t' ht => couples_pure (together_spent ht)
  · intro _ t t' ht hown
    exact couples_execute hsrv (same_insertDsnKey ht hdraw hown) fun row t t' ht =>
      couples_recorded hsrv hdraw (List.Subset.refl ds) ht

theorem revokeDsnKey_agrees {projectId keyId : ℕ} :
    (revokeDsnKey lib srv draw org projectId keyId actor).Agrees (Together org ds ds acc)
      db db' := by
  refine agrees_session (together_spent h) ?_
  refine couples_execute hsrv (same_revokeDsnKey h draw.now keyId projectId) ?_
  intro rowcount t t' ht
  by_cases hcount : rowcount = 0
  · rw [if_pos hcount]
    exact couples_pure (together_spent ht)
  · rw [if_neg hcount]
    exact couples_recorded hsrv hdraw (List.subset_cons_self draw ds) ht

omit hdraw in
theorem couples_channelScopeMissing {projectId : Option ℕ} {next : Bool → Tx α}
    (hmissing : ∀ t t', Together org (draw :: ds) (draw :: ds) acc t t' →
      Couples srv (.tenant org) (next true) t t' post)
    (hscope : ∀ t t', Together org (draw :: ds) (draw :: ds) acc t t' →
      (∀ p ∈ projectId, t.OwnsProject org p) → Couples srv (.tenant org) (next false) t t' post) :
    Couples srv (.tenant org) ((channelScopeMissing projectId).bind next) db db' post := by
  cases projectId with
  | none => exact hscope db db' h fun p hp => absurd hp (Option.not_mem_none p)
  | some projectId =>
      refine couples_bind (couples_bind (couples_loadProjectRow hsrv h hmissing ?_))
      intro _ t t' ht hown
      refine hscope t t' ht fun p hp => ?_
      rw [← Option.mem_some_iff.mp hp]
      exact hown

theorem createChannel_agrees {channelType : PyStr} {config : Json} {projectId : Option ℕ} :
    (createChannel lib srv draw org channelType config projectId actor).Agrees
      (Together org ds ds acc) db db' := by
  refine agrees_ofExcept (together_spent h) fun normalized => ?_
  refine agrees_session (together_spent h) (couples_channelScopeMissing hsrv h ?_ ?_)
  · exact fun t t' ht => couples_pure (together_spent ht)
  · intro t t' ht hown
    refine couples_execute hsrv (same_insertChannel ht hdraw hown channelType normalized) ?_
    exact fun row t t' ht => couples_raiseError fun target =>
      couples_recorded hsrv hdraw (List.Subset.refl ds) ht

theorem updateChannel_agrees {channelId : ℕ} {enabled : Option Bool} {config : Json} :
    (updateChannel lib srv draw org channelId enabled config actor).Agrees
      (Together org ds ds acc) db db' := by
  refine agrees_session (together_spent h) ?_
  refine couples_execute hsrv (same_selectChannel h channelId) fun found t t' ht => ?_
  refine couples_oneOrNone (couples_pure (together_spent ht)) fun current _ => ?_
  refine couples_raiseError fun replaced => ?_
  split
  · exact couples_pure (together_spent ht)
  · refine couples_execute hsrv (same_updateChannel ht enabled _ channelId) fun rows t t' ht => ?_
    exact couples_one fun row =>
      couples_recorded hsrv hdraw (List.subset_cons_self draw ds) ht

theorem deleteChannel_agrees {channelId : ℕ} :
    (deleteChannel lib srv draw org channelId actor).Agrees (Together org ds ds acc) db db' := by
  refine agrees_session (together_spent h) ?_
  refine couples_execute hsrv (same_deleteChannel h channelId) fun types t t' ht => ?_
  refine couples_oneOrNone (couples_pure (together_spent ht)) fun type _ => ?_
  exact couples_recorded hsrv hdraw (List.subset_cons_self draw ds) ht

theorem setIssueStatus_agrees {projectId issueId : ℕ} {action : PyStr} :
    (setIssueStatus lib srv draw org projectId issueId action actor).Agrees
      (Together org ds ds acc) db db' := by
  unfold setIssueStatus
  cases actionOfStr? action with
  | none => exact agrees_raise (together_spent h)
  | some a =>
      refine agrees_session (together_spent h) (couples_loadProjectRow hsrv h ?_ ?_)
      · exact fun t t' ht => couples_pure (together_spent ht)
      · intro _ t t' ht _
        refine couples_execute hsrv (same_updateStatus ht a issueId projectId) ?_
        intro found t t' ht
        refine couples_oneOrNone (couples_pure (together_spent ht)) fun row _ => ?_
        exact couples_recorded hsrv hdraw (List.subset_cons_self draw ds) ht

omit hdraw in
theorem couples_requireMember {userId : Option ℕ} {next : Unit → Tx α}
    (hnext : ∀ t t', Together org (draw :: ds) (draw :: ds) acc t t' →
      Couples srv (.tenant org) (next ()) t t' post) :
    Couples srv (.tenant org) ((requireMember userId).bind next) db db' post := by
  cases userId with
  | none => exact hnext db db' h
  | some userId =>
      refine couples_bind (couples_execute hsrv (same_selectMember h userId) ?_)
      exact fun found t t' ht => couples_oneOrNone couples_raise fun _ _ => hnext t t' ht

theorem assignInSession_agrees {projectId issueId : ℕ} {userId : Option ℕ} :
    (tenantSession srv org (assignInSession lib draw org projectId issueId userId actor)).Agrees
      (Together org ds ds acc) db db' := by
  refine agrees_session (together_spent h) (couples_loadProjectRow hsrv h ?_ ?_)
  · exact fun t t' ht => couples_pure (together_spent ht)
  · intro _ t t' ht _
    refine couples_requireMember hsrv ht fun t t' ht => ?_
    refine couples_execute hsrv (same_updateAssignee ht userId issueId projectId) ?_
    intro found t t' ht
    refine couples_oneOrNone (couples_pure (together_spent ht)) fun row _ => ?_
    exact couples_recorded hsrv hdraw (List.subset_cons_self draw ds) ht

theorem assignIssue_agrees {projectId issueId : ℕ} {userId : Option ℕ} :
    (assignIssue lib srv draw org projectId issueId userId actor).Agrees (Together org ds ds acc)
      db db' := by
  refine agrees_bind (assignInSession_agrees hsrv hdraw h) (fun _ _ ht => ht) ?_
  intro assigned t t' ht
  cases assigned with
  | true => exact getIssue_agrees hsrv ht
  | false => exact agrees_pure ht

theorem deleteIssue_agrees {projectId issueId : ℕ} :
    (deleteIssue lib srv draw org projectId issueId actor).Agrees (Together org ds ds acc)
      db db' := by
  refine agrees_session (together_spent h) ?_
  refine couples_execute hsrv (same_deleteIssue h issueId projectId) fun titles t t' ht => ?_
  refine couples_oneOrNone (couples_pure (together_spent ht)) fun title _ => ?_
  exact couples_recorded hsrv hdraw (List.subset_cons_self draw ds) ht

/-! ## Invites, of any organisation -/

theorem createInvite_agrees {email role : PyStr} :
    (createInvite lib srv draw owner email role actor).Agrees (Alike org ds ds) db db' := by
  unfold createInvite
  split
  · exact agrees_raise ⟨acc, together_spent h⟩
  · refine agrees_ofExcept ⟨acc, together_spent h⟩ fun tokenHash => ?_
    refine agrees_session ⟨acc, together_spent h⟩ ?_
    refine couples_execute hsrv (same_insertInvite h draw.id owner email role tokenHash _) ?_
    rintro _ t t' ⟨acc', ht⟩
    refine couples_record hsrv hdraw ht fun t t' ht => couples_pure ⟨acc', ?_⟩
    exact ht.mono (List.subset_cons_self draw ds) (List.Subset.refl ds)

omit hdraw in
theorem couples_insertNewUser {userId : ℕ} {email : PyStr} {passwordHash : Option PyStr}
    {next : Unit → Tx α}
    (hnext : ∀ t t', Alike org (draw :: ds) (draw :: ds) t t' →
      Couples srv scope (next ()) t t' post) :
    Couples srv scope ((insertNewUser userId email passwordHash).bind next) db db' post := by
  cases passwordHash with
  | none => exact hnext db db' ⟨acc, h⟩
  | some passwordHash =>
      exact couples_execute hsrv (same_insertUser h userId email passwordHash) fun _ => hnext

theorem grant_agrees {invite : Invite} {email : PyStr} {userId : ℕ} {passwordHash : Option PyStr} :
    (grant lib srv draw invite email userId passwordHash).Agrees (Alike org ds ds) db db' := by
  refine agrees_session ⟨acc, together_spent h⟩ (couples_insertNewUser hsrv h ?_)
  rintro t t' ⟨acc₁, ht⟩
  refine couples_execute hsrv (same_insertMembership ht invite.orgId userId invite.role) ?_
  rintro _ t t' ⟨acc₂, ht⟩
  refine couples_execute hsrv (same_acceptInvite ht draw.now invite.id) ?_
  rintro _ t t' ⟨acc₃, ht⟩
  refine couples_record hsrv hdraw ht fun t t' ht => couples_pure ⟨acc₃, ?_⟩
  exact ht.mono (List.subset_cons_self draw ds) (List.Subset.refl ds)

omit hsrv hdraw in
theorem couples_found {rows : List β} :
    Couples srv scope (oneOrNone rows) db db'
      fun _ => Together org (draw :: ds) (draw :: ds) acc := by
  match rows with
  | [] => exact couples_pure h
  | [row] => exact couples_pure h
  | _ :: _ :: _ => exact couples_raise

omit hdraw in
theorem loadUserByEmail_agrees {email : PyStr} :
    (loadUserByEmail srv email).Agrees (Together org (draw :: ds) (draw :: ds) acc) db db' :=
  agrees_session h (couples_execute hsrv (same_selectUser h email) fun _ _ _ ht =>
    couples_found ht)

omit hdraw in
theorem inviteByToken_agrees {tokenHash : PyStr} :
    (inviteByToken srv tokenHash).Agrees (Together org (draw :: ds) (draw :: ds) acc) db db' :=
  agrees_session h (couples_execute hsrv (same_selectInvite h tokenHash) fun _ _ _ ht =>
    couples_found ht)

theorem acceptOpenInvite_agrees {invite : Invite} {email password : PyStr} :
    (acceptOpenInvite lib srv draw invite email password).Agrees (Alike org ds ds) db db' := by
  refine agrees_bind (loadUserByEmail_agrees hsrv h)
    (fun t t' ht => ⟨acc, together_spent ht⟩) fun found t t' ht => ?_
  have hspent : Alike org ds ds t t' := ⟨acc, together_spent ht⟩
  cases found with
  | some existing =>
      refine agrees_ofExcept hspent fun verified => ?_
      cases verified with
      | true => exact grant_agrees hsrv hdraw ht
      | false => exact agrees_pure hspent
  | none =>
      dsimp only
      split
      · exact agrees_raise hspent
      · exact agrees_ofExcept hspent fun passwordHash => grant_agrees hsrv hdraw ht

theorem acceptInvite_agrees {token email password : PyStr} :
    (acceptInvite lib srv draw token email password).Agrees (Alike org ds ds) db db' := by
  refine agrees_ofExcept ⟨acc, together_spent h⟩ fun tokenHash => ?_
  refine agrees_bind (inviteByToken_agrees hsrv h)
    (fun t t' ht => ⟨acc, together_spent ht⟩) fun found t t' ht => ?_
  have hspent : Alike org ds ds t t' := ⟨acc, together_spent ht⟩
  cases found with
  | none => exact agrees_pure hspent
  | some invite =>
      dsimp only
      split
      · exact agrees_pure hspent
      · split
        · exact agrees_pure hspent
        · exact acceptOpenInvite_agrees hsrv hdraw ht

end Services

/-! ## Calls -/

namespace Call

/-- The organisation whose session the call opens; an invite is nobody's. -/
def orgId? : Call → Option ℕ
  | .createProject orgId _ _ _ | .updateProjectSampling orgId _ _ _ | .deleteProject orgId _ _
  | .createDsnKey orgId _ _ | .revokeDsnKey orgId _ _ _ | .createChannel orgId _ _ _ _
  | .updateChannel orgId _ _ _ _ | .deleteChannel orgId _ _ | .setIssueStatus orgId _ _ _ _
  | .assignIssue orgId _ _ _ _ | .deleteIssue orgId _ _ _ => some orgId
  | .createInvite _ _ _ _ | .acceptInvite _ _ _ => none

/-- The calls an organisation can notice: its own and those about invites. -/
def concerns (org : ℕ) (call : Call) : Bool := call.orgId?.all fun orgId => orgId = org

end Call

/-- A call with the server it meets and what it draws. -/
structure Arrival where
  srv : Server
  draw : Drawn
  call : Call

def answer (lib : Libraries) (db : Db) (a : Arrival) :
    (Σ call : Call, Except ServiceError call.Answer) × Db :=
  (⟨a.call, (a.call.run lib a.srv a.draw db).1⟩, (a.call.run lib a.srv a.draw db).2)

section Calls

variable {lib : Libraries} {srv : Server} {draw : Drawn} {ds : List Drawn} {acc : Accounts}
  {db db' : Db} {org : ℕ} {call : Call}

theorem call_agrees (hsrv : srv.Oblivious) (hdraw : ∀ d ∈ ds, Distinct d draw)
    (horg : call.orgId? = some org) (hdb : db.Consistent) (hdb' : db'.Consistent)
    (h : Together org (draw :: ds) (draw :: ds) acc db db') :
    (call.run lib srv draw).Agrees (Together org ds ds acc) db db' := by
  cases call with
  | createProject =>
      cases horg
      exact createProject_agrees hsrv hdraw h
  | updateProjectSampling =>
      cases horg
      exact updateProjectSampling_agrees hsrv hdraw h
  | deleteProject =>
      cases horg
      exact deleteProject_agrees hsrv hdraw h hdb hdb'
  | createDsnKey =>
      cases horg
      exact createDsnKey_agrees hsrv hdraw h
  | revokeDsnKey =>
      cases horg
      exact revokeDsnKey_agrees hsrv hdraw h
  | createChannel =>
      cases horg
      exact createChannel_agrees hsrv hdraw h
  | updateChannel =>
      cases horg
      exact updateChannel_agrees hsrv hdraw h
  | deleteChannel =>
      cases horg
      exact deleteChannel_agrees hsrv hdraw h
  | setIssueStatus =>
      cases horg
      exact setIssueStatus_agrees hsrv hdraw h
  | assignIssue =>
      cases horg
      exact assignIssue_agrees hsrv hdraw h
  | deleteIssue =>
      cases horg
      exact deleteIssue_agrees hsrv hdraw h
  | createInvite => cases horg
  | acceptInvite => cases horg

theorem inviteCall_agrees (hsrv : srv.Oblivious) (hdraw : ∀ d ∈ ds, Distinct d draw)
    (horg : call.orgId? = none) (h : Together org (draw :: ds) (draw :: ds) acc db db') :
    (call.run lib srv draw).Agrees (Alike org ds ds) db db' := by
  cases call with
  | createInvite => exact createInvite_agrees hsrv hdraw h
  | acceptInvite => exact acceptInvite_agrees hsrv hdraw h
  | _ => cases horg

theorem leaves_orgId {t : Trail} (horg : call.orgId? = some org) (h : call.Leaves lib draw db t) :
    t.orgId = org := by
  cases call with
  | setIssueStatus =>
      cases horg
      obtain ⟨-, rfl⟩ | ⟨-, rfl⟩ | ⟨-, rfl⟩ := h <;> rfl
  | createInvite => cases horg
  | acceptInvite => cases horg
  | _ =>
      cases horg
      cases h
      rfl

theorem AuditedChange.ownRows_eq {t : Trail} (h : AuditedChange t db db') (hdb : db.Consistent)
    (hne : org ≠ t.orgId) : db'.ownRows org = db.ownRows org := by
  have hwithin := h.within fun _ => hdb
  obtain ⟨row, hlog, hrow⟩ := h.logged
  have haudit : own org db'.auditLog = own org db.auditLog := by
    have hout : ¬tenant row = org := fun heq => hne (heq.symm.trans hrow.orgId)
    rw [hlog, own, List.filter_append, own, List.filter_cons, List.filter_nil,
      if_neg (by simpa using hout), List.append_nil]
  exact ownRows_ext (own_of_elsewhere hwithin.projects hne) (own_of_elsewhere hwithin.dsnKeys hne)
    (own_of_elsewhere hwithin.issues hne) (own_of_elsewhere hwithin.releases hne)
    (own_of_elsewhere hwithin.comments hne) (own_of_elsewhere hwithin.channels hne) haudit

/-- A call of another organisation leaves everything one organisation sees as it was. -/
theorem otherCall_ownRows {other : ℕ} (horg : call.orgId? = some other) (hne : org ≠ other)
    (hdb : db.Consistent) :
    (call.run lib srv draw db).2.ownRows org = db.ownRows org := by
  obtain ⟨hsame, -⟩ | ⟨⟨t, tables, ⟨ht, -⟩, -, hchange⟩, -⟩ :=
    call_allOrNothing lib srv draw call db
  · rw [hsame]
  · exact hchange.ownRows_eq hdb (leaves_orgId horg ht ▸ hne)

end Calls

/-! ## Runs -/

section Runs

variable {lib : Libraries} {org : ℕ}

/-- Servers that fail for reasons of their own, and uuids and tokens no one has drawn before. -/
structure Fresh (arrivals : List Arrival) (db : Db) : Prop where
  oblivious : ∀ a ∈ arrivals, a.srv.Oblivious
  distinct : arrivals.Pairwise fun a b => Distinct b.draw a.draw
  unused : ∀ a ∈ arrivals, Unused a.draw db
  unlogged : ∀ a ∈ arrivals, Unlogged a.draw db

/-- Both runs are at the arrivals to come. -/
structure InStep (org : ℕ) (arrivals : List Arrival) (db db' : Db) : Prop where
  left : db.Consistent
  right : db'.Consistent
  oblivious : ∀ a ∈ arrivals, a.srv.Oblivious
  distinct : arrivals.Pairwise fun a b => Distinct b.draw a.draw
  alike : Alike org (arrivals.map Arrival.draw) (arrivals.map Arrival.draw) db db'

theorem inStep_fresh {arrivals : List Arrival} {db : Db} (hdb : db.Consistent)
    (h : Fresh arrivals db) : InStep org arrivals db db := by
  have hready : Ready (arrivals.map Arrival.draw) (arrivals.map Arrival.draw) db.accounts db := by
    refine ⟨rfl, ?_, ?_⟩
    · exact List.forall_mem_map.mpr h.unused
    · exact List.forall_mem_map.mpr h.unlogged
  exact ⟨hdb, hdb, h.oblivious, h.distinct, db.accounts, hready, hready, rfl⟩

variable {a : Arrival} {arrivals : List Arrival} {db db' : Db}

theorem InStep.draws (h : InStep org (a :: arrivals) db db') :
    ∀ d ∈ arrivals.map Arrival.draw, Distinct d a.draw :=
  List.forall_mem_map.mpr (List.pairwise_cons.mp h.distinct).1

theorem InStep.next {t t' : Db} (h : InStep org (a :: arrivals) db db') (ht : t.Consistent)
    (ht' : t'.Consistent)
    (halike : Alike org (arrivals.map Arrival.draw) (arrivals.map Arrival.draw) t t') :
    InStep org arrivals t t' :=
  ⟨ht, ht', fun b hb => h.oblivious b (List.mem_cons_of_mem a hb),
    (List.pairwise_cons.mp h.distinct).2, halike⟩

/-- A call the organisation can notice is answered alike in both runs. -/
theorem inStep_noticed (hconcerns : a.call.concerns org = true)
    (h : InStep org (a :: arrivals) db db') :
    (answer lib db a).1 = (answer lib db' a).1 ∧
      InStep org arrivals (answer lib db a).2 (answer lib db' a).2 := by
  have hsrv : a.srv.Oblivious := h.oblivious a List.mem_cons_self
  obtain ⟨acc, htogether⟩ := h.alike
  have hagrees : (a.call.run lib a.srv a.draw).Agrees
      (Alike org (arrivals.map Arrival.draw) (arrivals.map Arrival.draw)) db db' := by
    cases horg : a.call.orgId? with
    | none => exact inviteCall_agrees hsrv h.draws horg htogether
    | some owner =>
        rw [Call.concerns, horg, Option.all_some, decide_eq_true_eq] at hconcerns
        subst hconcerns
        exact (call_agrees hsrv h.draws horg h.left h.right htogether).mono
          fun t t' ht => ⟨acc, ht⟩
  exact ⟨congrArg (Sigma.mk a.call) hagrees.1,
    h.next (call_consistent h.left) (call_consistent h.right) hagrees.2⟩

/-- A call of another organisation leaves the two runs in step. -/
theorem inStep_unnoticed (hconcerns : a.call.concerns org = false)
    (h : InStep org (a :: arrivals) db db') : InStep org arrivals (answer lib db a).2 db' := by
  have hsrv : a.srv.Oblivious := h.oblivious a List.mem_cons_self
  obtain ⟨acc, htogether⟩ := h.alike
  cases horg : a.call.orgId? with
  | none =>
      rw [Call.concerns, horg] at hconcerns
      cases hconcerns
  | some other =>
      rw [Call.concerns, horg, Option.all_some, decide_eq_false_iff_not] at hconcerns
      -- The call beside itself: it leaves the accounts, and uses no key that is still to be drawn.
      have hself : (a.call.run lib a.srv a.draw).Agrees _ db db :=
        call_agrees hsrv h.draws horg h.left h.left ⟨htogether.left, htogether.left, rfl⟩
      have hown : (a.call.run lib a.srv a.draw db).2.ownRows org = db.ownRows org :=
        otherCall_ownRows horg (fun heq => hconcerns heq.symm) h.left
      refine h.next (call_consistent h.left) h.right ⟨acc, hself.2.left, ?_, ?_⟩
      · exact (together_spent htogether).right
      · exact htogether.ownRows.trans hown.symm

theorem tenants_do_not_interfere (lib : Libraries) (org : ℕ) (arrivals : List Arrival) (db : Db)
    (hdb : db.Consistent) (hfresh : Fresh arrivals db) :
    let own := arrivals.filter fun a => a.call.concerns org
    Mealy.observed (fun a => a.call.concerns org) (answer lib) db arrivals =
        (Mealy.trace (answer lib) db own).map Prod.fst ∧
      (Mealy.final (answer lib) db arrivals).ownRows org =
        (Mealy.final (answer lib) db own).ownRows org := by
  have hnoticed : ∀ (a : Arrival) (arrivals : List Arrival) (s s' : Db),
      a.call.concerns org = true → InStep org (a :: arrivals) s s' →
      (answer lib s a).1 = (answer lib s' a).1 ∧
        InStep org arrivals (answer lib s a).2 (answer lib s' a).2 :=
    fun _ _ _ _ ha h => inStep_noticed ha h
  have hunnoticed : ∀ (a : Arrival) (arrivals : List Arrival) (s s' : Db),
      a.call.concerns org = false → InStep org (a :: arrivals) s s' →
      InStep org arrivals (answer lib s a).2 s' :=
    fun _ _ _ _ ha h => inStep_unnoticed ha h
  obtain ⟨hanswers, hend⟩ := Mealy.observed_purge (fun a : Arrival => a.call.concerns org)
    hnoticed hunnoticed (inStep_fresh hdb hfresh)
  obtain ⟨acc, htogether⟩ := hend.alike
  exact ⟨hanswers, htogether.ownRows.symm⟩

/-- Organisation 1 revokes its key while organisation 2 deletes its project and makes another. -/
def sampleArrivals : List Arrival :=
  [⟨sampleServer, ⟨7, py "t7", 20, 0⟩, .deleteProject 2 4 none⟩,
    ⟨sampleServer, ⟨8, py "t8", 21, 1⟩, .createProject 2 (py "New") none none⟩,
    ⟨sampleServer, ⟨9, py "t9", 22, 2⟩, .revokeDsnKey 1 3 5 none⟩]

theorem sampleServer_oblivious : sampleServer.Oblivious := fun _ _ _ _ => rfl

theorem sampleArrivals_fresh : Fresh sampleArrivals twoOrganisations where
  oblivious := by
    intro a ha
    fin_cases ha <;> exact sampleServer_oblivious
  distinct := by
    refine .cons ?_ (.cons ?_ (.cons ?_ .nil))
    · intro a ha
      fin_cases ha <;> exact ⟨by decide, by decide, by decide⟩
    · intro a ha
      fin_cases ha
      exact ⟨by decide, by decide, by decide⟩
    · intro a ha
      cases ha
  unused := by
    intro a ha
    fin_cases ha <;> exact ⟨by decide, by decide, by decide, by decide⟩
  unlogged := by
    intro a ha
    fin_cases ha <;> exact List.not_mem_nil

theorem other_organisations_unnoticed :
    (Mealy.observed (fun a => a.call.concerns 1) (answer sampleLibraries) twoOrganisations
        sampleArrivals =
      (Mealy.trace (answer sampleLibraries) twoOrganisations
        (sampleArrivals.filter fun a => a.call.concerns 1)).map Prod.fst) ∧
    (Mealy.final (answer sampleLibraries) twoOrganisations sampleArrivals).ownRows 1 =
      (Mealy.final (answer sampleLibraries) twoOrganisations
        (sampleArrivals.filter fun a => a.call.concerns 1)).ownRows 1 :=
  tenants_do_not_interfere sampleLibraries 1 sampleArrivals twoOrganisations
    twoOrganisations_consistent sampleArrivals_fresh

end Runs

end Crashlens.Tenant
