import Crashlens.Transactions

/-!
# What each transaction asks for and what it leaves behind

One specification per program, in the weakest precondition calculus: `Pre` holds wherever a
statement is sent and the postcondition of a job holds of its session when it commits, whatever
other transactions commit in between. Everything proved about interleavings starts from here.
-/

namespace Crashlens

open Transactional

abbrev Session := Transactional.Session Timestamp WriteSet Request Response

section Answers

variable {pg : Postgres} {s s' : Session}

/-- The statements that only read. -/
def Request.isRead : Request → Bool
  | .dedupeEvent _ _ => true
  | .priorIssue _ _ => true
  | .releaseCreatedAt _ _ => true
  | .loadProject _ => true
  | .isMember _ => true
  | _ => false

theorem answers_read {q : Request} (hq : q.isRead = true) {r : Response q}
    (h : (store pg).Answers q s r s') : s' = s.after q r s.writes := by
  obtain ⟨snap, c, d, c', he, rfl⟩ := h
  cases q <;> cases hq <;> cases he <;> rfl

theorem answers_upsertRelease {p : ℕ} {v : Text} {r : Unit}
    (h : (store pg).Answers (.upsertRelease p v) s r s') :
    s' = s.after (.upsertRelease p v) () s.writes ∨
      s' = s.after (.upsertRelease p v) () { s.writes with release := some ⟨p, v, s.now⟩ } := by
  obtain ⟨snap, c, d, c', he, rfl⟩ := h
  simp only [store, exec] at he
  split_ifs at he
  · cases he
    exact .inl rfl
  · cases he
    exact .inr rfl

/-- The pending write and the returned row of an issue upsert. -/
def Upserted (p : UpsertIssue) (row : UpsertRow) (iw : IssueWrite) : Prop :=
  (iw = .insert (p.newRow row.id) ∧ row.inserted = true ∧ row.status = .unresolved) ∨
    ∃ old, iw = .update old (p.onConflict old) ∧ row.id = old.id ∧ row.inserted = false ∧
      row.status = (p.onConflict old).status

theorem answers_upsertIssue {p : UpsertIssue} {row : UpsertRow}
    (h : (store pg).Answers (.upsertIssue p) s row s') :
    ∃ iw, Upserted p row iw ∧
      s' = s.after (.upsertIssue p) row { s.writes with issue := some iw } := by
  obtain ⟨snap, c, d, c', he, rfl⟩ := h
  simp only [store, exec] at he
  split at he
  · next old hold =>
      cases he
      exact ⟨_, .inr ⟨old, rfl, rfl, rfl, rfl⟩, rfl⟩
  · split_ifs at he
    cases he
    exact ⟨_, .inl ⟨rfl, rfl, rfl⟩, rfl⟩

theorem answers_insertEvent {e : Event} {r : Unit}
    (h : (store pg).Answers (.insertEvent e) s r s') :
    s' = s.after (.insertEvent e) () { s.writes with event := some e } := by
  obtain ⟨snap, c, d, c', he, rfl⟩ := h
  simp only [store, exec] at he
  split_ifs at he
  cases he
  rfl

/-- What a service writes into an issue row it updates. -/
def ServiceUpdate (pg : Postgres) (old new : Issue) : Prop :=
  (∃ a snap, new = StatusAction.set pg snap old a) ∨ ∃ u, new = { old with assignedTo := u }

/-- What an `UPDATE` of one issue row by an issue service leaves pending. -/
def Updated (pg : Postgres) (w w' : WriteSet) : Prop :=
  w' = w ∨ ∃ old new, ServiceUpdate pg old new ∧ w' = { w with issue := some (.update old new) }

theorem updateIssue_cases (snap view : Db) (issueId projectId : ℕ) (f : Issue → Issue)
    (w : WriteSet) :
    updateIssue snap view issueId projectId f w = (none, w) ∨
      ∃ old, findIssueById snap issueId projectId ≠ none ∧
        findIssueById view issueId projectId = some old ∧
        updateIssue snap view issueId projectId f w =
          (some (f old), { w with issue := some (.update old (f old)) }) := by
  unfold updateIssue
  split
  · next hs hv => exact .inr ⟨_, by simp [hs], hv, rfl⟩
  · exact .inl rfl

theorem updated_updateIssue {snap view : Db} {i p : ℕ} {f : Issue → Issue} {w : WriteSet}
    (hf : ∀ old, ServiceUpdate pg old (f old)) :
    Updated pg w (updateIssue snap view i p f w).2 := by
  obtain hn | ⟨old, -, -, hu⟩ := updateIssue_cases snap view i p f w
  · rw [hn]
    exact .inl rfl
  · rw [hu]
    exact .inr ⟨old, _, hf old, rfl⟩

theorem answers_updateStatus {a : StatusAction} {i p : ℕ} {r : Option Issue}
    (h : (store pg).Answers (.updateStatus a i p) s r s') :
    ∃ w, Updated pg s.writes w ∧ s' = s.after (.updateStatus a i p) r w := by
  obtain ⟨snap, c, d, c', he, rfl⟩ := h
  cases he
  exact ⟨_, updated_updateIssue fun _ => .inl ⟨a, _, rfl⟩, rfl⟩

theorem answers_updateAssignee {u : Option ℕ} {i p : ℕ} {r : Option ℕ}
    (h : (store pg).Answers (.updateAssignee u i p) s r s') :
    ∃ w, Updated pg s.writes w ∧ s' = s.after (.updateAssignee u i p) r w := by
  obtain ⟨snap, c, d, c', he, rfl⟩ := h
  cases he
  exact ⟨_, updated_updateIssue fun _ => .inr ⟨u, rfl⟩, rfl⟩

theorem answers_deleteIssue {i p : ℕ} {r : Option Text}
    (h : (store pg).Answers (.deleteIssue i p) s r s') :
    ∃ iw, (iw = s.writes.issue ∨ ∃ old, iw = some (.delete old)) ∧
      s' = s.after (.deleteIssue i p) r { s.writes with issue := iw } := by
  obtain ⟨snap, c, d, c', he, rfl⟩ := h
  simp only [store, exec] at he
  split at he
  · cases he
    exact ⟨_, .inr ⟨_, rfl⟩, rfl⟩
  · cases he
    exact ⟨_, .inl rfl, rfl⟩

theorem answers_insertAudit {row : AuditRow} {r : Unit}
    (h : (store pg).Answers (.insertAudit row) s r s') :
    s' = s.after (.insertAudit row) () { s.writes with audit := some row } := by
  obtain ⟨snap, c, d, c', he, rfl⟩ := h
  cases he
  rfl

end Answers

/-! ## Preconditions and postconditions -/

/-- The issue row read before the regression decision, once the transaction has read it. -/
def preRead (s : Session) : Option (Option (Status × Option Text)) :=
  s.log.findSome? fun
    | ⟨.priorIssue _ _, r⟩ => some r
    | _ => none

/-- The session has not asked when a release was first seen. -/
def Unread (s : Session) : Prop := ∀ q v t, ⟨.releaseCreatedAt q v, t⟩ ∉ s.log

/-- `should_regress` was decided on what the session has read: the issue row `prior` and the answers
for the event's release and for the fix release. -/
structure Decision (s : Session) (p : UpsertIssue) (prior : Option (Status × Option Text))
    (eventSeen fixSeen : Option Timestamp) : Prop where
  priorRead : preRead s = some prior
  recorded : ∀ v, p.eventRelease = some v →
    v.nonempty = true ∧ ⟨.upsertRelease p.projectId v, ()⟩ ∈ s.log
  eventRead : ∀ v, p.eventRelease = some v → ⟨.releaseCreatedAt p.projectId v, eventSeen⟩ ∈ s.log
  fixRead : ∀ v, fixRelease prior = some v → v.nonempty = true →
    ⟨.releaseCreatedAt p.projectId v, fixSeen⟩ ∈ s.log
  reads : ∀ q v t, ⟨.releaseCreatedAt q v, t⟩ ∈ s.log →
    p.eventRelease = some v ∧ t = eventSeen ∨ fixRelease prior = some v ∧ t = fixSeen
  decided : p.shouldRegress = decideRegression (fixRelease prior) p.eventRelease eventSeen fixSeen

/-- The id of the issue row a pending write leaves behind. -/
def IssueWrite.newId : IssueWrite → Option ℕ
  | .insert row => some row.id
  | .update _ new => some new.id
  | .delete _ => none

def Pre : (q : Request) → Session → Prop
  | .dedupeEvent _ _, s => s.writes = .empty ∧ s.log = []
  | .upsertRelease p v, s => v.nonempty = true ∧ s.writes.release = none ∧
      ∀ t, ⟨.releaseCreatedAt p v, t⟩ ∉ s.log
  | .upsertIssue p, s => s.writes.issue = none ∧
      ∃ prior eventSeen fixSeen, Decision s p prior eventSeen fixSeen
  | .insertEvent e, s => s.writes.event = none ∧
      ∃ iw, s.writes.issue = some iw ∧ iw.newId = some e.issueId
  | .updateStatus _ _ _, s => s.writes.issue = none
  | .updateAssignee _ _ _, s => s.writes.issue = none
  | .deleteIssue _ _, s => s.writes.issue = none
  | _, _ => True

/-- How a stored event left its transaction. -/
structure StoredBy (pg : Postgres) (call : EventCall) (r : EventResult) (s : Session)
    (p : UpsertIssue) (row : UpsertRow) (iw : IssueWrite) (e : Event) : Prop where
  upsertLogged : ⟨.upsertIssue p, row⟩ ∈ s.log
  checkLogged : ⟨.dedupeEvent e.projectId e.eventId, false⟩ ∈ s.log
  upserted : Upserted p row iw
  issue : s.writes.issue = some iw
  event : s.writes.event = some e
  result : r = eventResult row p.eventRelease
  projectId : p.projectId = call.projectId
  eventKey : call.eventKey pg = some (e.projectId, e.eventId)
  issueId : e.issueId = row.id
  receivedAt : e.receivedAt = p.seenAt

def EventPost (pg : Postgres) (rt : Runtime) (call : EventCall) : EventOutcome → Session → Prop
  | .poison, s => s.writes = .empty ∧ ∃ e, prepare rt call = .error e
  | .duplicate, s => s.writes = .empty ∧ ∃ p eventId, call.eventKey pg = some (p, eventId) ∧
      s.log = [⟨.dedupeEvent p eventId, true⟩]
  | .stored r, s => ∃ p row iw e, StoredBy pg call r s p row iw e

/-- An issue service changes at most one issue row, and not what the worker counts. -/
def ServicePost (pg : Postgres) (s : Session) : Prop :=
  s.writes.event = none ∧ s.writes.release = none ∧ (s.writes.issue = none ∨
    ∃ old new, s.writes.issue = some (.update old new) ∧ ServiceUpdate pg old new)

def DeletePost (s : Session) : Prop :=
  s.writes.event = none ∧ s.writes.release = none ∧
    (s.writes.issue = none ∨ ∃ old, s.writes.issue = some (.delete old))

def JobPost (pg : Postgres) (rt : Runtime) : Job → Outcome → Session → Prop
  | .event call, .event o, s => EventPost pg rt call o s
  | .status _ _ _ _, .status _, s => ServicePost pg s
  | .assign _ _ _ _, .assign _, s => ServicePost pg s
  | .delete _ _ _, .delete _, s => DeletePost s
  | _, _, _ => False

section Specs

variable {pg : Postgres}

theorem wp_ofOption {α : Type} {pre : (q : Request) → Session → Prop}
    {post : α → Session → Prop} {e : DbError} {x : Option α} {s : Session} :
    (Program.ofOption e x : Tx α).wp (store pg).Answers pre post s ↔
      ∀ a, x = some a → post a s := by
  cases x with
  | none => simp [Program.ofOption, Program.wp]
  | some a => simp [Program.ofOption, Program.wp]

theorem wp_execute {pre : (q : Request) → Session → Prop} {q : Request}
    {post : Response q → Session → Prop} {s : Session} (hpre : pre q s)
    (h : ∀ r s', (store pg).Answers q s r s' → post r s') :
    (execute q).wp (store pg).Answers pre post s := ⟨hpre, h⟩

theorem preRead_after (s : Session) (q : Request) (r : Response q) (d : WriteSet) :
    preRead (s.after q r d) = (preRead s).or (match q, r with
      | .priorIssue _ _, r => some r
      | _, _ => none) := by
  rw [preRead, Session.after_log, List.findSome?_append]
  cases q <;> rfl

/-- The session went on without touching the issue row or the event row. -/
structure Extends (s s' : Session) : Prop where
  issue : s'.writes.issue = s.writes.issue
  event : s'.writes.event = s.writes.event
  log : ∀ x ∈ s.log, x ∈ s'.log

theorem Extends.refl (s : Session) : Extends s s := ⟨rfl, rfl, fun _ h => h⟩

theorem Extends.trans {s s' s'' : Session} (h : Extends s s') (h' : Extends s' s'') :
    Extends s s'' :=
  ⟨h'.issue.trans h.issue, h'.event.trans h.event, fun x hx => h'.log x (h.log x hx)⟩

theorem Extends.after {s : Session} {q : Request} {r : Response q} {d : WriteSet}
    (hi : d.issue = s.writes.issue) (he : d.event = s.writes.event) : Extends s (s.after q r d) :=
  ⟨hi, he, fun x hx => by simp [hx]⟩

theorem textParam_nonempty {c : CodePoint} {cs : PyStr} {v : Text}
    (h : textParam (.str (c :: cs)) = some v) : v.nonempty = true := by
  simp only [textParam, Text.ofPyStr?] at h
  split at h
  · cases h
    rfl
  · cases h

theorem recordRelease_spec (projectId : ℕ) (release : Json) (s : Session)
    (hs : s.writes.release = none) (hread : Unread s) :
    (recordRelease projectId release).wp (store pg).Answers Pre
      (fun er s' => Extends s s' ∧ preRead s' = preRead s ∧ Unread s' ∧
        ∀ v, er = some v → v.nonempty = true ∧ ⟨.upsertRelease projectId v, ()⟩ ∈ s'.log) s := by
  unfold recordRelease
  split
  · next c cs =>
      simp only [Program.bind_eq, bindText, Program.wp_bind, wp_ofOption]
      intro version hv
      have hne : version.nonempty = true := textParam_nonempty hv
      refine wp_execute ⟨hne, hs, fun t => hread _ _ t⟩ fun r s' hr => ?_
      have hpost (d : WriteSet) (hi : d.issue = s.writes.issue) (he : d.event = s.writes.event) :
          let s' := s.after (.upsertRelease projectId version) () d
          Extends s s' ∧ preRead s' = preRead s ∧ Unread s' ∧ ∀ v, some version = some v →
            v.nonempty = true ∧ ⟨.upsertRelease projectId v, ()⟩ ∈ s'.log := by
        refine ⟨.after hi he, by simp [preRead_after], fun q v t hmem => ?_, fun v hv' => ?_⟩
        · rw [Session.after_log, List.mem_append, List.mem_singleton] at hmem
          obtain hmem | hmem := hmem
          · exact hread q v t hmem
          · cases hmem
        · cases hv'
          exact ⟨hne, by simp⟩
      obtain rfl | rfl := answers_upsertRelease hr
      · exact hpost _ rfl rfl
      · exact hpost _ rfl rfl
  · exact ⟨.refl s, rfl, hread, fun v hv => by cases hv⟩

theorem createdAtOf_spec (projectId : ℕ) (version : Option Text) (s : Session) :
    (createdAtOf projectId version).wp (store pg).Answers Pre
      (fun t s' => Extends s s' ∧ preRead s' = preRead s ∧
        (∀ v, version = some v → ⟨.releaseCreatedAt projectId v, t⟩ ∈ s'.log) ∧
        ∀ q v t', ⟨.releaseCreatedAt q v, t'⟩ ∈ s'.log →
          ⟨.releaseCreatedAt q v, t'⟩ ∈ s.log ∨ version = some v ∧ t' = t) s := by
  cases version with
  | none => exact ⟨.refl s, rfl, fun v hv => (by cases hv), fun q v t' h => .inl h⟩
  | some v =>
      refine wp_execute trivial fun r s' hr => ?_
      rw [answers_read rfl hr]
      refine ⟨.after rfl rfl, by simp [preRead_after], fun v' hv => ?_, fun q v' t' hmem => ?_⟩
      · cases hv
        simp
      · rw [Session.after_log, List.mem_append, List.mem_singleton] at hmem
        obtain hmem | hmem := hmem
        · exact .inl hmem
        · cases hmem
          exact .inr ⟨rfl, rfl⟩

theorem decideShouldRegress_spec (prep : Prepared) (fingerprint : Text) (s : Session)
    (hs : preRead s = none) (hrel : s.writes.release = none) (hread : Unread s) :
    (decideShouldRegress prep fingerprint).wp (store pg).Answers Pre
      (fun out s' => Extends s s' ∧
        ∀ p : UpsertIssue, p.projectId = prep.projectId → p.eventRelease = out.1 →
          p.shouldRegress = out.2 → ∃ prior t₁ t₂, Decision s' p prior t₁ t₂) s := by
  simp only [decideShouldRegress, Program.bind_eq, Program.wp_bind, Program.pure_eq]
  refine Program.wp_mono (fun er s₁ h₁ => ?_)
    (recordRelease_spec prep.projectId prep.release s hrel hread)
  obtain ⟨hx₁, hp₁, hu₁, hv₁⟩ := h₁
  refine wp_execute trivial fun prior s₂ hr => ?_
  have hs₂ := answers_read rfl hr
  have hx₂ : Extends s₁ s₂ := hs₂ ▸ .after rfl rfl
  have hprior : preRead s₂ = some prior := by
    rw [hs₂, preRead_after, hp₁, hs]
    rfl
  have hu₂ : Unread s₂ := by
    intro q v t hmem
    rw [hs₂, Session.after_log, List.mem_append, List.mem_singleton] at hmem
    obtain hmem | hmem := hmem
    · exact hu₁ q v t hmem
    · cases hmem
  refine Program.wp_mono (fun t₁ s₃ h₃ => ?_) (createdAtOf_spec prep.projectId er s₂)
  obtain ⟨hx₃, hp₃, ht₁, hr₃⟩ := h₃
  refine Program.wp_mono (fun t₂ s₄ h₄ => ?_)
    (createdAtOf_spec prep.projectId ((fixRelease prior).filter Text.nonempty) s₃)
  obtain ⟨hx₄, hp₄, ht₂, hr₄⟩ := h₄
  refine ⟨((hx₁.trans hx₂).trans hx₃).trans hx₄, fun p hp her hsr => ⟨prior, t₁, t₂, ?_⟩⟩
  dsimp only at her hsr
  constructor
  · rw [hp₄, hp₃, hprior]
  · intro v hv
    rw [hp]
    exact ⟨(hv₁ v (her ▸ hv)).1, hx₄.log _ (hx₃.log _ (hx₂.log _ (hv₁ v (her ▸ hv)).2))⟩
  · intro v hv
    rw [hp]
    exact hx₄.log _ (ht₁ v (her ▸ hv))
  · intro v hv hne
    rw [hp]
    exact ht₂ v (by rw [hv, Option.filter_some, if_pos hne])
  · intro q v t hmem
    obtain hmem | ⟨hfix, rfl⟩ := hr₄ q v t hmem
    · obtain hmem | ⟨hv, rfl⟩ := hr₃ q v t hmem
      · exact absurd hmem (hu₂ q v t)
      · exact .inl ⟨her.trans hv, rfl⟩
    · exact .inr ⟨(Option.filter_eq_some_iff.mp hfix).1, rfl⟩
  · rw [hsr, her]

theorem Dict.get_of_item {d : Dict} {key : String} {v : Json} (h : d.item key = .ok v) :
    d.get key = v := by
  unfold Dict.item at h
  unfold Dict.get
  split at h
  · next v' hv =>
      cases h
      rw [hv, Option.getD_some]
  · cases h

/-- The key the duplicate check and the event row use. -/
theorem prepare_eventKey {rt : Runtime} {call : EventCall} {prep : Prepared} {eventId : ℕ}
    (h : prepare rt call = .ok prep) (hid : uuidParam pg prep.eventId = some eventId) :
    prep.projectId = call.projectId ∧ call.eventKey pg = some (prep.projectId, eventId) := by
  obtain ⟨_, _, _, _, _, -, -, -, hitem, -, -, rfl⟩ := prepare_ok_iff.mp h
  refine ⟨rfl, ?_⟩
  rw [EventCall.eventKey, Dict.get_of_item hitem, hid, Option.map_some]

theorem wp_bindText {post : Text → Session → Prop} {v : Json} {s : Session}
    (h : ∀ t, post t s) : (bindText v).wp (store pg).Answers Pre post s :=
  wp_ofOption.mpr fun t _ => h t

theorem wp_bindNullableText {post : Option Text → Session → Prop} {v : Json} {s : Session}
    (h : ∀ t, post t s) : (bindNullableText v).wp (store pg).Answers Pre post s :=
  wp_ofOption.mpr fun t _ => h t

theorem wp_bindLevel {post : Level → Session → Prop} {v : Json} {s : Session}
    (h : ∀ l, post l s) : (bindLevel v).wp (store pg).Answers Pre post s := by
  unfold bindLevel
  split
  · exact wp_ofOption.mpr fun l _ => h l
  · exact wp_ofOption.mpr fun l _ => h l

theorem wp_bindPayload {post : Dict → Session → Prop} {d : Dict} {s : Session}
    (h : ∀ p, post p s) : (bindPayload d).wp (store pg).Answers Pre post s := by
  unfold bindPayload
  split
  · exact h d
  · trivial

theorem Upserted.newId {p : UpsertIssue} {row : UpsertRow} {iw : IssueWrite}
    (h : Upserted p row iw) : iw.newId = some row.id := by
  obtain ⟨rfl, -, -⟩ | ⟨old, rfl, hid, -, -⟩ := h
  · rfl
  · exact congrArg some hid.symm

theorem storeEvent_spec {rt : Runtime} {call : EventCall} {prep : Prepared}
    (hcall : prep.projectId = call.projectId) (fingerprint : Text) (eventId : ℕ)
    (eventRelease : Option Text) (shouldRegress : Bool) (s : Session)
    (hissue : s.writes.issue = none)
    (hkey : call.eventKey pg = some (prep.projectId, eventId))
    (hchecked : ⟨.dedupeEvent prep.projectId eventId, false⟩ ∈ s.log)
    (hevent : s.writes.event = none)
    (hdecided : ∀ p : UpsertIssue, p.projectId = prep.projectId → p.eventRelease = eventRelease →
      p.shouldRegress = shouldRegress → ∃ prior t₁ t₂, Decision s p prior t₁ t₂) :
    (storeEvent prep fingerprint eventId eventRelease shouldRegress).wp (store pg).Answers Pre
      (fun r s' => EventPost pg rt call (.stored r) s') s := by
  simp only [storeEvent, Program.bind_eq, Program.wp_bind, Program.pure_eq]
  refine wp_bindText fun title => wp_bindLevel fun level => ?_
  let p : UpsertIssue := ⟨prep.projectId, fingerprint, title, level, prep.seenAt, shouldRegress,
    eventRelease⟩
  refine wp_execute ⟨hissue, hdecided p rfl rfl rfl⟩ fun row s₁ hr => ?_
  obtain ⟨iw, hup, hs₁⟩ := answers_upsertIssue hr
  have hiw : s₁.writes.issue = some iw := by rw [hs₁, Session.after_writes]
  have hlog₁ : ∀ x ∈ s.log, x ∈ s₁.log := fun x hx => by simp [hs₁, hx]
  refine wp_bindText fun environment => wp_bindNullableText fun release =>
    wp_bindPayload fun payload => ?_
  let e : Event := ⟨prep.projectId, row.id, eventId, prep.seenAt, environment, release, level,
    payload⟩
  have hev : s₁.writes.event = none := by rw [hs₁, Session.after_writes, hevent]
  refine wp_execute ⟨hev, iw, hiw, hup.newId⟩ fun u s₂ hr₂ => ?_
  have hs₂ := answers_insertEvent hr₂
  refine ⟨p, row, iw, e, ?_, ?_, hup, ?_, ?_, rfl, hcall, hkey, rfl, rfl⟩
  · simp [hs₂, hs₁, p]
  · rw [hs₂, Session.after_log]
    exact List.mem_append_left _ (hlog₁ _ hchecked)
  · rw [hs₂, Session.after_writes, hiw]
  · rw [hs₂, Session.after_writes]

theorem processEvent_spec (rt : Runtime) (call : EventCall) (now : Timestamp) :
    (processEvent pg rt call).wp (store pg).Answers Pre (EventPost pg rt call)
      ((store pg).init now) := by
  unfold processEvent
  split
  · next prep hprep =>
      simp only [processPrepared, Program.bind_eq, Program.wp_bind, Program.pure_eq, bindUuid,
        wp_ofOption]
      intro eventId hid
      obtain ⟨hcall, hkey⟩ := prepare_eventKey hprep hid
      refine wp_execute ⟨rfl, rfl⟩ fun dup s₁ hr => ?_
      have hs₁ := answers_read rfl hr
      have hempty : s₁.writes = .empty := hs₁ ▸ rfl
      have hlog : s₁.log = [⟨.dedupeEvent prep.projectId eventId, dup⟩] := hs₁ ▸ rfl
      cases dup with
      | true => exact ⟨hempty, prep.projectId, eventId, hkey, hlog⟩
      | false =>
          have hread : preRead s₁ = none := by
            rw [hs₁, preRead_after]
            rfl
          have hunread : Unread s₁ := by
            intro q v t hmem
            rw [hlog] at hmem
            cases List.mem_singleton.mp hmem
          simp only [Bool.false_eq_true, if_false, Program.wp_bind]
          refine wp_bindText fun fingerprint => Program.wp_mono (fun out s₂ h₂ => ?_)
            (decideShouldRegress_spec prep fingerprint s₁ hread (by rw [hempty]; rfl) hunread)
          obtain ⟨eventRelease, shouldRegress⟩ := out
          obtain ⟨hx, hd⟩ := h₂
          exact storeEvent_spec hcall fingerprint eventId eventRelease shouldRegress s₂
            (hx.issue.trans (by rw [hempty]; rfl)) hkey (hx.log _ (by simp [hlog]))
            (hx.event.trans (by rw [hempty]; rfl)) hd
  · next e he => exact ⟨rfl, e, he⟩

theorem recordIssueAudit_spec {post : Unit → Session → Prop} {actor : Option ℕ} {action : String}
    {issueId : ℕ} {s : Session}
    (h : ∀ s', s'.writes.issue = s.writes.issue → s'.writes.event = s.writes.event →
      s'.writes.release = s.writes.release → post () s') :
    (recordIssueAudit actor action issueId).wp (store pg).Answers Pre post s := by
  refine wp_execute trivial fun u s' hr => ?_
  rw [answers_insertAudit hr]
  exact h _ rfl rfl rfl

theorem Updated.servicePost {s : Session} {w : WriteSet} (hs : s.writes = .empty)
    (h : Updated pg s.writes w) (s' : Session) (hi : s'.writes.issue = w.issue)
    (he : s'.writes.event = w.event) (hr : s'.writes.release = w.release) : ServicePost pg s' := by
  obtain rfl | ⟨old, new, hnew, rfl⟩ := h
  · exact ⟨by rw [he, hs]; rfl, by rw [hr, hs]; rfl, .inl (by rw [hi, hs]; rfl)⟩
  · exact ⟨by rw [he, hs]; rfl, by rw [hr, hs]; rfl, .inr ⟨old, new, hi, hnew⟩⟩

theorem setIssueStatus_spec (projectId issueId : ℕ) (action : StatusAction) (actor : Option ℕ)
    (now : Timestamp) : (setIssueStatus projectId issueId action actor).wp (store pg).Answers Pre
      (fun _ s => ServicePost pg s) ((store pg).init now) := by
  simp only [setIssueStatus, Program.bind_eq, Program.wp_bind, Program.pure_eq]
  refine wp_execute trivial fun found s₁ hr => ?_
  have hs₁ : s₁.writes = .empty := by rw [answers_read rfl hr]; rfl
  cases found with
  | false => exact Updated.servicePost hs₁ (.inl rfl) s₁ rfl rfl rfl
  | true =>
      have hissue : s₁.writes.issue = none := by rw [hs₁]; rfl
      simp only [if_true, Program.wp_bind]
      refine wp_execute hissue fun row s₂ hr₂ => ?_
      obtain ⟨w, hu, hs₂⟩ := answers_updateStatus hr₂
      have hw : s₂.writes = w := by rw [hs₂, Session.after_writes]
      cases row with
      | none => exact hu.servicePost hs₁ s₂ (by rw [hw]) (by rw [hw]) (by rw [hw])
      | some row =>
          refine Program.wp_bind.mpr (recordIssueAudit_spec fun s₃ hi he hr₃ => ?_)
          exact hu.servicePost hs₁ s₃ (by rw [hi, hw]) (by rw [he, hw]) (by rw [hr₃, hw])

theorem checkMember_spec {post : Unit → Session → Prop} (userId : Option ℕ) (s : Session)
    (h : ∀ s', s'.writes = s.writes → post () s') :
    (checkMember userId).wp (store pg).Answers Pre post s := by
  cases userId with
  | none => exact h s rfl
  | some u =>
      refine wp_execute trivial fun member s' hr => ?_
      cases member with
      | false => trivial
      | true => exact h s' (by rw [answers_read rfl hr]; rfl)

theorem assignIssue_spec (projectId issueId : ℕ) (userId : Option ℕ) (actor : Option ℕ)
    (now : Timestamp) : (assignIssue projectId issueId userId actor).wp (store pg).Answers Pre
      (fun _ s => ServicePost pg s) ((store pg).init now) := by
  simp only [assignIssue, Program.bind_eq, Program.wp_bind, Program.pure_eq]
  refine wp_execute trivial fun found s₁ hr => ?_
  have hs₁ : s₁.writes = .empty := by rw [answers_read rfl hr]; rfl
  cases found with
  | false => exact Updated.servicePost hs₁ (.inl rfl) s₁ rfl rfl rfl
  | true =>
      simp only [if_true, Program.wp_bind]
      refine checkMember_spec userId s₁ fun s₂ hs₂ => ?_
      have hissue : s₂.writes.issue = none := by rw [hs₂, hs₁]; rfl
      refine wp_execute hissue fun row s₃ hr₃ => ?_
      obtain ⟨w, hu, hs₃⟩ := answers_updateAssignee hr₃
      have hw : s₃.writes = w := by rw [hs₃, Session.after_writes]
      have h₂ : s₂.writes = .empty := hs₂.trans hs₁
      cases row with
      | none => exact hu.servicePost h₂ s₃ (by rw [hw]) (by rw [hw]) (by rw [hw])
      | some id =>
          refine Program.wp_bind.mpr (recordIssueAudit_spec fun s₄ hi he hr₄ => ?_)
          exact hu.servicePost h₂ s₄ (by rw [hi, hw]) (by rw [he, hw]) (by rw [hr₄, hw])

theorem deleteIssue_spec (projectId issueId : ℕ) (actor : Option ℕ) (now : Timestamp) :
    (deleteIssue projectId issueId actor).wp (store pg).Answers Pre
      (fun _ s => DeletePost s) ((store pg).init now) := by
  simp only [deleteIssue, Program.bind_eq, Program.wp_bind, Program.pure_eq]
  refine wp_execute rfl fun title s₁ hr => ?_
  obtain ⟨iw, hiw, hs₁⟩ := answers_deleteIssue hr
  have hpost (s' : Session) (hi : s'.writes.issue = s₁.writes.issue)
      (he : s'.writes.event = s₁.writes.event) (hr' : s'.writes.release = s₁.writes.release) :
      DeletePost s' := by
    refine ⟨by rw [he, hs₁]; rfl, by rw [hr', hs₁]; rfl, ?_⟩
    rw [hi, hs₁]
    exact hiw
  cases title with
  | none => exact hpost s₁ rfl rfl rfl
  | some t => exact Program.wp_bind.mpr (recordIssueAudit_spec hpost)

theorem Job.program_spec (rt : Runtime) (job : Job) (now : Timestamp) :
    (job.program pg rt).wp (store pg).Answers Pre (JobPost pg rt job) ((store pg).init now) := by
  cases job with
  | event call => exact Program.wp_bind.mpr (processEvent_spec rt call now)
  | status p i a actor => exact Program.wp_bind.mpr (setIssueStatus_spec p i a actor now)
  | assign p i u actor => exact Program.wp_bind.mpr (assignIssue_spec p i u actor now)
  | delete p i actor => exact Program.wp_bind.mpr (deleteIssue_spec p i actor now)

/-- An event job returns the outcome of its event. -/
theorem JobPost.event_cases {rt : Runtime} {call : EventCall} {o : Outcome} {s : Session}
    (h : JobPost pg rt (.event call) o s) :
    ∃ out, o = .event out ∧ EventPost pg rt call out s := by
  cases o with
  | event out => exact ⟨out, rfl, h⟩
  | _ => exact h.elim

/-- Everything the commit of one job can leave in the tables of issues and events. -/
theorem JobPost.cases {rt : Runtime} {job : Job} {o : Outcome} {s : Session}
    (h : JobPost pg rt job o s) :
    (s.writes.issue = none ∧ s.writes.event = none) ∨
    (∃ call r p id e, job = .event call ∧ o = .event (.stored r) ∧ p.projectId = call.projectId ∧
      s.writes.issue = some (.insert (UpsertIssue.newRow p id)) ∧
      s.writes.event = some e ∧ e.issueId = id ∧ e.receivedAt = p.seenAt) ∨
    (∃ call r p old e, job = .event call ∧ o = .event (.stored r) ∧
      p.projectId = call.projectId ∧
      s.writes.issue = some (.update old (UpsertIssue.onConflict p old)) ∧
      s.writes.event = some e ∧ e.issueId = old.id ∧ e.receivedAt = p.seenAt) ∨
    (∃ old new, (∀ call, job ≠ .event call) ∧ ServiceUpdate pg old new ∧
      s.writes.issue = some (.update old new) ∧ s.writes.event = none) ∨
    (∃ old, (∀ call, job ≠ .event call) ∧ s.writes.issue = some (.delete old) ∧
      s.writes.event = none) := by
  have hservice (hjob : ∀ call, job ≠ .event call) (hs : ServicePost pg s) :
      (s.writes.issue = none ∧ s.writes.event = none) ∨ ∃ old new, (∀ call, job ≠ .event call) ∧
        ServiceUpdate pg old new ∧ s.writes.issue = some (.update old new) ∧
        s.writes.event = none := by
    obtain ⟨he, -, hi | ⟨old, new, hi, hnew⟩⟩ := hs
    · exact .inl ⟨hi, he⟩
    · exact .inr ⟨old, new, hjob, hnew, hi, he⟩
  cases job with
  | event call =>
      obtain ⟨out, rfl, h⟩ := h.event_cases
      cases out with
      | poison =>
          rw [h.1]
          exact .inl ⟨rfl, rfl⟩
      | duplicate =>
          rw [h.1]
          exact .inl ⟨rfl, rfl⟩
      | stored r =>
          obtain ⟨p, row, iw, e, hs⟩ := h
          obtain ⟨rfl, -, -⟩ | ⟨old, rfl, hid, -, -⟩ := hs.upserted
          · exact .inr (.inl ⟨call, r, p, row.id, e, rfl, rfl, hs.projectId, hs.issue, hs.event,
              hs.issueId, hs.receivedAt⟩)
          · exact .inr (.inr (.inl ⟨call, r, p, old, e, rfl, rfl, hs.projectId, hs.issue, hs.event,
              hs.issueId.trans hid, hs.receivedAt⟩))
  | status p i action actor =>
      cases o with
      | status row =>
          obtain h | h := hservice (fun call hj => by cases hj) h
          · exact .inl h
          · exact .inr (.inr (.inr (.inl h)))
      | _ => exact h.elim
  | assign p i userId actor =>
      cases o with
      | assign id =>
          obtain h | h := hservice (fun call hj => by cases hj) h
          · exact .inl h
          · exact .inr (.inr (.inr (.inl h)))
      | _ => exact h.elim
  | delete p i actor =>
      cases o with
      | delete deleted =>
          obtain ⟨he, -, hi | ⟨old, hi⟩⟩ := h
          · exact .inl ⟨hi, he⟩
          · exact .inr (.inr (.inr (.inr ⟨old, (fun call hj => by cases hj), hi, he⟩)))
      | _ => exact h.elim

end Specs

end Crashlens
