import Crashlens.IngestRoute
import Crashlens.Library.Mealy
import Crashlens.ServiceStatements

/-!
# Events and keys

Requests to the ingest route between the calls of the dashboard, in any order. An event gets into
the queue only with a key that is active at that moment, and under the ids of that key's row; what
is answered with an id is in the queue, once, and nothing else is. A key that has been revoked opens
nothing any more.
-/

namespace Crashlens.Edge

open RowSecurity
open Tenant (DsnKey ServiceError Libraries)

variable {lib : Libraries} {gunzip : Gzip.Bytes → Except Gzip.IngestError Gzip.Bytes}

inductive Input where
  | event (m : Moment) (request : EventRequest)
  | call (srv : Tenant.Server) (draw : Tenant.Drawn) (call : Tenant.Call)

section Steps

variable (lib) (gunzip)

/-- The answer to an event, and what either input leaves behind. -/
def step (s : State) : Input → Option Response × State
  | .event m request =>
    let (response, s) := ingestEvent lib gunzip s m request
    (some response, s)
  | .call srv draw call => (none, { s with db := (call.run lib srv draw s.db).2 })

def run (s : State) (inputs : List Input) : State := Mealy.final (step lib gunzip) s inputs

def answers (s : State) (inputs : List Input) : List (Option Response) :=
  (Mealy.trace (step lib gunzip) s inputs).map Prod.fst

end Steps

/-- The `id` of an answer that promises the event is processed. -/
def Response.promised : Response → Option Json
  | .accepted .null => none
  | .accepted id => some id
  | _ => none

/-- The ids that have been promised. -/
def promisedIds (answers : List (Option Response)) : List Json :=
  answers.filterMap fun r => r.bind Response.promised

/-- The job carries a valid envelope under the ids of an active key, the one that was presented, and
the project is one of the key's organisation. -/
def Authentic (lib : Libraries) (db : Tenant.Db) (request : EventRequest) (job : EventJob) : Prop :=
  ∃ k ∈ db.dsnKeys, k.active = true ∧ request.key = some k.publicKey.val ∧
    uuidStr k.projectId = uuidStr request.projectId ∧ job.dsnKeyId = uuidStr k.id ∧
    job.projectId = uuidStr k.projectId ∧ job.orgId = uuidStr k.orgId ∧
    (∃ p ∈ db.projects, p.id = k.projectId ∧ p.orgId = k.orgId) ∧
    validateEnvelope lib.rt job.envelope = .ok ()

/-! ## One request -/

section Request

variable {s s' : State} {m : Moment} {request : EventRequest} {record : DsnKeyRecord}
  {response : Response}

/-- The row that the key of a request is found in. -/
structure Authenticated (db : Tenant.Db) (request : EventRequest) (record : DsnKeyRecord) :
    Prop where
  key : ∃ k ∈ db.dsnKeys, request.key = some k.publicKey.val ∧ record.id = k.id ∧
    record.orgId = k.orgId ∧ record.projectId = k.projectId ∧ record.active = k.active
  active : record.active = true
  project : uuidStr record.projectId = uuidStr request.projectId

theorem resolveDsnKey_some {db : Tenant.Db} {publicKey : PyStr}
    (h : resolveDsnKey db publicKey = .ok (some record)) :
    ∃ k ∈ db.dsnKeys, k.publicKey.val = publicKey ∧ record.id = k.id ∧ record.orgId = k.orgId ∧
      record.projectId = k.projectId ∧ record.active = k.active := by
  obtain ⟨key, hkey, h⟩ := bind_ok h
  have hmem : record ∈ keyRecords db key := by
    split at h
    · cases h
    · next hrows =>
        cases h
        rw [hrows]
        exact List.mem_singleton_self _
    · cases h
  obtain ⟨k, hk, hrecord⟩ := List.mem_flatMap.mp hmem
  obtain ⟨p, -, rfl⟩ := List.mem_map.mp hrecord
  obtain ⟨hkmem, -, hkkey⟩ := mem_select.mp hk
  refine ⟨k, hkmem, ?_, rfl, rfl, rfl, rfl⟩
  rw [of_decide_eq_true hkkey]
  exact Tenant.bindText_val hkey

theorem authenticate_ok (h : authenticate s m request = .ok record) :
    Authenticated s.db request record := by
  unfold authenticate at h
  dsimp only at h
  split at h
  · cases h
  · next hsome =>
      split at h
      · cases h
      · split at h
        · cases h
        · cases h
        · next found hfound =>
            split at h
            · cases h
            · next hactive =>
                split at h
                · cases h
                · next hproject =>
                    cases h
                    obtain ⟨k, hk, hkey, hfields⟩ := resolveDsnKey_some hfound
                    refine ⟨⟨k, hk, ?_, hfields⟩, by simpa using hactive, by simpa using hproject⟩
                    cases hpresent : request.key with
                    | none =>
                        rw [hpresent] at hsome
                        exact absurd rfl hsome
                    | some key =>
                        rw [hpresent] at hkey
                        exact congrArg some hkey.symm

theorem authenticate_error {outcome : Response × State}
    (h : authenticate s m request = .error outcome) :
    outcome.2.db = s.db ∧ outcome.2.redis = s.redis ∧ outcome.2.queue = s.queue ∧
      outcome.1.promised = none := by
  unfold authenticate at h
  dsimp only at h
  split at h
  · cases h
    exact ⟨rfl, rfl, rfl, rfl⟩
  · split at h
    · cases h
      exact ⟨rfl, rfl, rfl, rfl⟩
    · split at h
      · cases h
        exact ⟨rfl, rfl, rfl, rfl⟩
      · cases h
        exact ⟨rfl, rfl, rfl, rfl⟩
      · split at h
        · cases h
          exact ⟨rfl, rfl, rfl, rfl⟩
        · split at h
          · cases h
            exact ⟨rfl, rfl, rfl, rfl⟩
          · cases h

theorem readEnvelope_ok {body : Gzip.Bytes} {envelope : Dict}
    (h : readEnvelope lib body = .ok envelope) : validateEnvelope lib.rt envelope = .ok () := by
  obtain ⟨parsed, -, h⟩ := bind_ok h
  split at h
  · next hvalid =>
      cases h
      exact hvalid
  · cases h
  · cases h

/-- Either nothing is promised and nothing enqueued, or one job is, and its id is promised. -/
structure Enqueues (lib : Libraries) (record : DsnKeyRecord) (s : State)
    (outcome : Response × State) : Prop where
  db : outcome.2.db = s.db
  queue : (outcome.1.promised = none ∧ outcome.2.queue = s.queue) ∨
    ∃ job, outcome.2.queue = s.queue ++ [job] ∧
      outcome.1.promised = some (job.envelope.get "event_id") ∧
      job.dsnKeyId = uuidStr record.id ∧ job.projectId = uuidStr record.projectId ∧
      job.orgId = uuidStr record.orgId ∧ validateEnvelope lib.rt job.envelope = .ok ()

theorem enqueues_reject {decision : String} {status : ℕ} {size : Option ℕ}
    {retryAfter : Option ℤ} {projectId : ℕ} :
    Enqueues lib record s (reject s projectId decision status size retryAfter) :=
  ⟨rfl, .inl ⟨rfl, rfl⟩⟩

/-- The event id of a valid envelope is a string, so the answer to it is not the one to an event
that is sampled out. -/
theorem promised_eventId {envelope : Dict} (h : validateEnvelope lib.rt envelope = .ok ()) :
    (Response.accepted (envelope.get "event_id")).promised = some (envelope.get "event_id") := by
  obtain ⟨_, hid, -⟩ := bind_ok h
  unfold checkEventId at hid
  split at hid
  · next hget => rw [hget]; rfl
  · cases hid

theorem enqueue_enqueues {envelope : Dict} {projectId size : ℕ}
    (h : validateEnvelope lib.rt envelope = .ok ()) :
    Enqueues lib record s (enqueue lib s m record projectId envelope size) := by
  unfold enqueue
  split
  · exact ⟨rfl, .inl ⟨rfl, rfl⟩⟩
  · exact ⟨rfl, .inr ⟨_, rfl, promised_eventId h, rfl, rfl, rfl, h⟩⟩

theorem processBody_enqueues (lib : Libraries)
    (gunzip : Gzip.Bytes → Except Gzip.IngestError Gzip.Bytes) (s : State) (m : Moment)
    (request : EventRequest) :
    Enqueues lib record s (processBody lib gunzip s m record request) := by
  unfold processBody
  split
  · exact ⟨rfl, .inl ⟨rfl, rfl⟩⟩
  · split
    · exact enqueues_reject
    · split
      · exact enqueues_reject
      · exact ⟨rfl, .inl ⟨rfl, rfl⟩⟩
      · next henvelope => exact enqueue_enqueues (readEnvelope_ok henvelope)

theorem throttle_enqueues (s : State) (m : Moment) (request : EventRequest) :
    Enqueues lib record s (throttle lib gunzip s m record request) := by
  unfold throttle
  split
  · exact ⟨rfl, .inl ⟨rfl, rfl⟩⟩
  · split
    next decision redis _ =>
      dsimp only
      split
      · exact ⟨rfl, .inl ⟨rfl, rfl⟩⟩
      · split
        · exact ⟨rfl, .inl ⟨rfl, rfl⟩⟩
        · have hbody : Enqueues lib record { s with redis := redis } (processBody lib gunzip
              { s with redis := redis } m record request) :=
            processBody_enqueues lib gunzip _ m request
          exact ⟨hbody.db, hbody.queue⟩

/-- All that one request can do. -/
theorem ingestEvent_cases (lib : Libraries)
    (gunzip : Gzip.Bytes → Except Gzip.IngestError Gzip.Bytes) {s : State} (m : Moment)
    (request : EventRequest) (hs : s.db.Consistent) :
    let outcome := ingestEvent lib gunzip s m request
    outcome.2.db = s.db ∧ ((outcome.1.promised = none ∧ outcome.2.queue = s.queue) ∨
      ∃ job, outcome.2.queue = s.queue ++ [job] ∧
        outcome.1.promised = some (job.envelope.get "event_id") ∧
        Authentic lib s.db request job) := by
  unfold ingestEvent
  cases hauth : authenticate s m request with
  | error outcome =>
      obtain ⟨hdb, -, hqueue, hpromised⟩ := authenticate_error hauth
      exact ⟨hdb, .inl ⟨hpromised, hqueue⟩⟩
  | ok record =>
      have hrecord := authenticate_ok hauth
      have hthrottle : Enqueues lib record s (throttle lib gunzip s m record request) :=
        throttle_enqueues s m request
      obtain ⟨hdb, hnone | ⟨job, hqueue, hpromised, hkey, hproject, horg, hvalid⟩⟩ := hthrottle
      · exact ⟨hdb, .inl hnone⟩
      · obtain ⟨k, hk, hpresented, hid, horgId, hprojectId, hactive⟩ := hrecord.key
        refine ⟨hdb, .inr ⟨job, hqueue, hpromised, k, hk, ?_, hpresented, ?_, ?_, ?_, ?_, ?_,
          hvalid⟩⟩
        · exact hactive.symm.trans hrecord.active
        · rw [← hprojectId]
          exact hrecord.project
        · rw [hkey, hid]
        · rw [hproject, hprojectId]
        · rw [horg, horgId]
        · exact hs.dsnKeys k hk k.projectId rfl

end Request

/-! ## Runs -/

section Runs

theorem run_cons (s : State) (input : Input) (inputs : List Input) :
    run lib gunzip s (input :: inputs) = run lib gunzip (step lib gunzip s input).2 inputs := rfl

theorem answers_cons (s : State) (input : Input) (inputs : List Input) :
    answers lib gunzip s (input :: inputs) =
      (step lib gunzip s input).1 :: answers lib gunzip (step lib gunzip s input).2 inputs := rfl

/-- The job was enqueued for an event of the run, authentic at that moment. -/
def Entered (lib : Libraries) (gunzip : Gzip.Bytes → Except Gzip.IngestError Gzip.Bytes)
    (s : State) (inputs : List Input) (job : EventJob) : Prop :=
  ∃ before m request after, inputs = before ++ .event m request :: after ∧
    Authentic lib (run lib gunzip s before).db request job

theorem Entered.later {s : State} {input : Input} {inputs : List Input} {job : EventJob}
    (h : Entered lib gunzip (step lib gunzip s input).2 inputs job) :
    Entered lib gunzip s (input :: inputs) job := by
  obtain ⟨before, m, request, after, rfl, hauth⟩ := h
  exact ⟨input :: before, m, request, after, rfl, hauth⟩

theorem step_consistent {s : State} (input : Input) (hs : s.db.Consistent) :
    (step lib gunzip s input).2.db.Consistent := by
  cases input with
  | event m request =>
      have hdb : (step lib gunzip s (.event m request)).2.db = s.db :=
        (ingestEvent_cases lib gunzip m request hs).1
      rw [hdb]
      exact hs
  | call srv draw call => exact Tenant.call_consistent hs

/-- The queue grows by one job for each id that is promised, in order, and by nothing else. -/
theorem promised_events_are_queued (lib : Libraries)
    (gunzip : Gzip.Bytes → Except Gzip.IngestError Gzip.Bytes) (s : State) (inputs : List Input)
    (hs : s.db.Consistent) :
    ∃ jobs, (run lib gunzip s inputs).queue = s.queue ++ jobs ∧
      jobs.map (fun job => job.envelope.get "event_id") =
        promisedIds (answers lib gunzip s inputs) ∧
      ∀ job ∈ jobs, Entered lib gunzip s inputs job := by
  induction inputs generalizing s with
  | nil => exact ⟨[], (List.append_nil _).symm, rfl, fun _ h => nomatch h⟩
  | cons input inputs ih =>
      obtain ⟨jobs, hqueue, hids, hentered⟩ :=
        ih (step lib gunzip s input).2 (step_consistent input hs)
      have hlater := fun job hjob => (hentered job hjob).later
      rw [run_cons, answers_cons, hqueue]
      cases input with
      | call srv draw call => exact ⟨jobs, rfl, hids, hlater⟩
      | event m request =>
          obtain ⟨-, ⟨hnone, hsame⟩ | ⟨job, hone, hpromised, hauth⟩⟩ :=
            ingestEvent_cases lib gunzip m request hs
          · refine ⟨jobs, congrArg (· ++ jobs) hsame, ?_, hlater⟩
            rw [promisedIds, List.filterMap_cons_none]
            · exact hids
            · exact hnone
          · refine ⟨job :: jobs, ?_, ?_, ?_⟩
            · exact (congrArg (· ++ jobs) hone).trans (List.append_assoc _ _ _)
            · rw [promisedIds, @List.filterMap_cons_some _ _ _ _ _ (job.envelope.get "event_id"),
                List.map_cons]
              · exact congrArg _ hids
              · exact hpromised
            · intro job' hjob'
              obtain rfl | hjob' := List.mem_cons.mp hjob'
              · exact ⟨[], m, request, inputs, rfl, hauth⟩
              · exact hlater job' hjob'

/-- No job leaves the queue, and each that comes in entered along the run. -/
theorem run_queue (lib : Libraries) (gunzip : Gzip.Bytes → Except Gzip.IngestError Gzip.Bytes)
    (s : State) (inputs : List Input) (hs : s.db.Consistent) :
    (∀ job ∈ s.queue, job ∈ (run lib gunzip s inputs).queue) ∧
      ∀ job ∈ (run lib gunzip s inputs).queue, job ∈ s.queue ∨ Entered lib gunzip s inputs job := by
  induction inputs generalizing s with
  | nil => exact ⟨fun _ h => h, fun _ h => .inl h⟩
  | cons input inputs ih =>
      obtain ⟨hkept, hcame⟩ := ih (step lib gunzip s input).2 (step_consistent input hs)
      rw [run_cons]
      cases input with
      | call srv draw call => exact ⟨hkept, fun job h => (hcame job h).imp_right .later⟩
      | event m request =>
          obtain ⟨-, ⟨-, hsame⟩ | ⟨job, hone, -, hauth⟩⟩ :=
            ingestEvent_cases lib gunzip m request hs
          · have hqueue : (step lib gunzip s (.event m request)).2.queue = s.queue := hsame
            rw [hqueue] at hkept hcame
            exact ⟨hkept, fun job h => (hcame job h).imp_right .later⟩
          · have hqueue : (step lib gunzip s (.event m request)).2.queue = s.queue ++ [job] := hone
            rw [hqueue] at hkept hcame
            refine ⟨fun job h => hkept job (List.mem_append_left _ h), fun job' h => ?_⟩
            obtain hin | hentered := hcame job' h
            · obtain hin | hnew := List.mem_append.mp hin
              · exact .inl hin
              · rw [List.mem_singleton.mp hnew]
                exact .inr ⟨[], m, request, inputs, rfl, hauth⟩
            · exact .inr hentered.later

end Runs

/-! ## Revoked keys -/

section Revoked

variable {s : State} {m : Moment} {request : EventRequest}

theorem length_le_one_of_nodup {α β : Type} {f : α → β} {xs : List α} {b : β}
    (hnodup : (xs.map f).Nodup) (h : ∀ x ∈ xs, f x = b) : xs.length ≤ 1 := by
  match xs with
  | [] => exact Nat.zero_le 1
  | [_] => exact le_rfl
  | x :: y :: rest =>
      rw [List.map_cons, List.map_cons, h x List.mem_cons_self,
        h y (List.mem_cons_of_mem _ List.mem_cons_self)] at hnodup
      exact absurd List.mem_cons_self (List.nodup_cons.mp hnodup).1

theorem length_flatMap_le_one {α β : Type} {f : α → List β} {xs : List α} (hxs : xs.length ≤ 1)
    (hf : ∀ x ∈ xs, (f x).length ≤ 1) : (xs.flatMap f).length ≤ 1 := by
  match xs with
  | [] => exact Nat.zero_le 1
  | [x] =>
      rw [List.flatMap_singleton]
      exact hf x (List.mem_singleton_self x)
  | _ :: _ :: _ => exact absurd hxs (by simp)

/-- A public key is found in at most one row. -/
theorem keyRecords_le_one {db : Tenant.Db} (hdb : db.Consistent) (hunique : db.KeysUnique)
    (publicKey : Text) : (keyRecords db publicKey).length ≤ 1 := by
  refine length_flatMap_le_one ?_ fun k _ => ?_
  · refine length_le_one_of_nodup (hunique.sublist (List.filter_sublist.map _)) (b := publicKey.val)
      fun k hk => ?_
    rw [of_decide_eq_true (mem_select.mp hk).2.2]
  · rw [List.length_map]
    refine length_le_one_of_nodup (hdb.projectIds.sublist (List.filter_sublist.map _))
      (b := k.projectId) fun p hp => ?_
    exact of_decide_eq_true (mem_select.mp hp).2.2

theorem bindText_text (t : Text) : Tenant.bindText t.val = .ok t := by
  unfold Tenant.bindText Text.ofPyStr?
  rw [dif_pos t.property]
  rfl

theorem resolveDsnKey_ok {db : Tenant.Db} (hdb : db.Consistent) (hunique : db.KeysUnique)
    (key : Text) : ∃ found, resolveDsnKey db key.val = .ok found := by
  have hone := keyRecords_le_one hdb hunique key
  rw [resolveDsnKey, bindText_text]
  match hrows : keyRecords db key with
  | [] => exact ⟨none, by simp [bind, Except.bind, hrows]⟩
  | [record] => exact ⟨some record, by simp [bind, Except.bind, hrows]⟩
  | _ :: _ :: _ =>
      rw [hrows] at hone
      exact absurd hone (by simp)

/-- A key out of use is answered 401, and nothing but the log shows that it has been there. -/
theorem ingestEvent_closed {key : Text} (hdb : s.db.Consistent) (hunique : s.db.KeysUnique)
    (hclosed : s.db.Closed key.val) (hkey : request.key = some key.val)
    (hdatabase : m.fails .database = false) :
    ∃ decision, ingestEvent lib gunzip s m request =
      reject s request.projectId decision 401 none none := by
  have hauth : ∃ decision, authenticate s m request =
      .error (reject s request.projectId decision 401 none none) := by
    unfold authenticate
    simp only [hkey, Option.getD_some, hdatabase, Bool.false_eq_true, if_false]
    cases hempty : key.val.isEmpty with
    | true => exact ⟨"missing_key", rfl⟩
    | false =>
        refine ⟨"invalid_key", ?_⟩
        cases hresolve : resolveDsnKey s.db key.val with
        | error e =>
            obtain ⟨found, hfound⟩ := resolveDsnKey_ok hdb hunique key
            rw [hfound] at hresolve
            cases hresolve
        | ok found =>
            cases found with
            | none => rfl
            | some record =>
                obtain ⟨k, hk, hkkey, -, -, -, hactive⟩ := resolveDsnKey_some hresolve
                have hinactive : record.active = false := hactive.trans (hclosed k hk hkkey)
                simp [hinactive]
  obtain ⟨decision, hauth⟩ := hauth
  exact ⟨decision, by rw [ingestEvent, hauth]⟩

/-! ## Runs with a revocation -/

/-- The input draws no token that is the public key. -/
def Input.Spares (publicKey : PyStr) : Input → Prop
  | .event _ _ => True
  | .call _ draw _ => draw.token ≠ publicKey

theorem run_append (s : State) (first rest : List Input) :
    run lib gunzip s (first ++ rest) = run lib gunzip (run lib gunzip s first) rest :=
  List.foldl_append

theorem run_consistent {s : State} (inputs : List Input) (hs : s.db.Consistent) :
    (run lib gunzip s inputs).db.Consistent := by
  induction inputs generalizing s with
  | nil => exact hs
  | cons input inputs ih => exact ih (step_consistent input hs)

theorem step_db_event {s : State} (hs : s.db.Consistent) (m : Moment) (request : EventRequest) :
    (step lib gunzip s (.event m request)).2.db = s.db :=
  (ingestEvent_cases lib gunzip m request hs).1

theorem run_keysUnique {s : State} (inputs : List Input) (hs : s.db.Consistent)
    (hunique : s.db.KeysUnique) : (run lib gunzip s inputs).db.KeysUnique := by
  induction inputs generalizing s with
  | nil => exact hunique
  | cons input inputs ih =>
      refine ih (step_consistent input hs) ?_
      cases input with
      | event m request =>
          rw [step_db_event hs]
          exact hunique
      | call srv draw call => exact Tenant.call_keysUnique hunique

theorem run_closed {s : State} {publicKey : PyStr} (inputs : List Input) (hs : s.db.Consistent)
    (hspares : ∀ input ∈ inputs, input.Spares publicKey) (hclosed : s.db.Closed publicKey) :
    (run lib gunzip s inputs).db.Closed publicKey := by
  induction inputs generalizing s with
  | nil => exact hclosed
  | cons input inputs ih =>
      obtain ⟨hinput, hinputs⟩ := List.forall_mem_cons.mp hspares
      refine ih (step_consistent input hs) hinputs ?_
      cases input with
      | event m request =>
          rw [step_db_event hs]
          exact hclosed
      | call srv draw call => exact Tenant.call_closed hinput hclosed

/-- From the moment its revocation returns, a key opens nothing: whatever happens before and after,
the route answers it 401 and leaves tables, buckets and queue as they are. -/
theorem revoked_key_opens_nothing (lib : Libraries)
    (gunzip : Gzip.Bytes → Except Gzip.IngestError Gzip.Bytes) (s : State)
    (before after : List Input) (k : DsnKey) (srv : Tenant.Server) (draw : Tenant.Drawn)
    (actor : Option ℕ) (answer : Bool) (m : Moment) (request : EventRequest)
    (hs : s.db.Consistent) (hunique : s.db.KeysUnique)
    (hk : k ∈ (run lib gunzip s before).db.dsnKeys)
    (hrevoked : (Tenant.revokeDsnKey lib srv draw k.orgId k.projectId k.id actor
      (run lib gunzip s before).db).1 = .ok answer)
    (hspares : ∀ input ∈ after, input.Spares k.publicKey.val)
    (hkey : request.key = some k.publicKey.val) (hdatabase : m.fails .database = false) :
    let revocation := Input.call srv draw (.revokeDsnKey k.orgId k.projectId k.id actor)
    let later := run lib gunzip s (before ++ revocation :: after)
    ∃ decision, ingestEvent lib gunzip later m request =
      reject later request.projectId decision 401 none none := by
  intro revocation later
  have hbefore : (run lib gunzip s before).db.Consistent := run_consistent before hs
  have huniqueBefore : (run lib gunzip s before).db.KeysUnique := run_keysUnique before hs hunique
  have hafter : later = run lib gunzip
      (step lib gunzip (run lib gunzip s before) revocation).2 after :=
    run_append s before (revocation :: after)
  have hclosed : (step lib gunzip (run lib gunzip s before) revocation).2.db.Closed
      k.publicKey.val := Tenant.revokeDsnKey_closed huniqueBefore hk hrevoked
  refine ingestEvent_closed ?_ ?_ ?_ hkey hdatabase
  · exact run_consistent _ hs
  · exact run_keysUnique _ hs hunique
  · rw [hafter]
    exact run_closed after (step_consistent revocation hbefore) hspares hclosed

end Revoked

/-! ## The allowance of a key -/

section Allowance

/-- The call of the limiter that the request comes to. -/
def meteredCall (s : State) (m : Moment) (request : EventRequest) : Option (String × RateCall) :=
  match authenticate s m request with
  | .error _ => none
  | .ok record => if m.fails .redis then none else some (keyIdString record.id, m.call)

/-- The calls of the limiter for one key, along a run. -/
def meteredCalls (lib : Libraries) (gunzip : Gzip.Bytes → Except Gzip.IngestError Gzip.Bytes)
    (keyId : String) : State → List Input → List RateCall
  | _, [] => []
  | s, .event m request :: inputs =>
    ((meteredCall s m request).filter fun c => c.1 = keyId).toList.map Prod.snd ++
      meteredCalls lib gunzip keyId (step lib gunzip s (.event m request)).2 inputs
  | s, .call srv draw call :: inputs =>
    meteredCalls lib gunzip keyId (step lib gunzip s (.call srv draw call)).2 inputs

theorem bucket_untouched {redis : Redis} {keyId other : String} {call : RateCall}
    (hne : other ≠ keyId) :
    (checkRateLimit redis other call).2 (bucketKey keyId) = redis (bucketKey keyId) := by
  have hkey : bucketKey keyId ≠ bucketKey other := fun h => hne (bucketKey_injective h).symm
  rw [checkRateLimit_eq]
  exact Function.update_of_ne hkey _ _

/-- What a key is allowed depends on its own bucket only. -/
theorem allows_congr {redis redis' : Redis} {keyId : String} {call : RateCall}
    (h : redis' (bucketKey keyId) = redis (bucketKey keyId)) :
    allows keyId redis' call = allows keyId redis call ∧
      (checkRateLimit redis' keyId call).2 (bucketKey keyId) =
        (checkRateLimit redis keyId call).2 (bucketKey keyId) := by
  have hlevel : levelAt keyId redis' call = levelAt keyId redis call := by
    rw [levelAt, levelAt, hmget, hmget, h]
  constructor
  · rw [Bool.eq_iff_iff, allows_iff, allows_iff, hlevel]
  · rw [bucket_after, bucket_after, leftAt, leftAt, hlevel]

theorem allowedCount_cons (keyId : String) (redis : Redis) (call : RateCall)
    (calls : List RateCall) :
    allowedCount keyId redis (call :: calls) = (if allows keyId redis call then 1 else 0) +
      allowedCount keyId (checkRateLimit redis keyId call).2 calls := rfl

theorem allowedCount_congr {redis redis' : Redis} {keyId : String} (calls : List RateCall)
    (h : redis' (bucketKey keyId) = redis (bucketKey keyId)) :
    allowedCount keyId redis' calls = allowedCount keyId redis calls := by
  induction calls generalizing redis redis' with
  | nil => rfl
  | cons call calls ih =>
      have hallows : allows keyId redis' call = allows keyId redis call := (allows_congr h).1
      rw [allowedCount_cons, allowedCount_cons, hallows, ih (allows_congr h).2]

theorem processBody_redis {s : State} {m : Moment} {record : DsnKeyRecord}
    {request : EventRequest} :
    (processBody lib gunzip s m record request).2.redis = s.redis := by
  unfold processBody
  split
  · rfl
  · split
    · rfl
    · split
      · rfl
      · rfl
      · unfold enqueue
        split <;> rfl

/-- An event is enqueued only if the limiter allows it, and no event that fails to authenticate
comes to the limiter. -/
theorem ingestEvent_metered (lib : Libraries)
    (gunzip : Gzip.Bytes → Except Gzip.IngestError Gzip.Bytes) (s : State) (m : Moment)
    (request : EventRequest) :
    let outcome := ingestEvent lib gunzip s m request
    match meteredCall s m request with
    | none => outcome.2.redis = s.redis ∧ outcome.2.queue = s.queue
    | some (keyId, call) => outcome.2.redis = (checkRateLimit s.redis keyId call).2 ∧
        (outcome.2.queue = s.queue ∨ ∃ job, outcome.2.queue = s.queue ++ [job] ∧
          allows keyId s.redis call = true ∧ keyId = asString job.dsnKeyId) := by
  unfold ingestEvent meteredCall
  cases hauth : authenticate s m request with
  | error outcome =>
      obtain ⟨-, hredis, hqueue, -⟩ := authenticate_error hauth
      exact ⟨hredis, hqueue⟩
  | ok record =>
      dsimp only
      unfold throttle
      cases hfails : m.fails .redis with
      | true => exact ⟨rfl, rfl⟩
      | false =>
          simp only [Bool.false_eq_true, if_false]
          cases hallowed : (checkRateLimit s.redis (keyIdString record.id) m.call).1.allowed with
          | false => exact ⟨rfl, .inl rfl⟩
          | true =>
              simp only [Bool.not_true, Bool.false_eq_true, if_false]
              split
              · exact ⟨rfl, .inl rfl⟩
              · refine ⟨processBody_redis, ?_⟩
                obtain ⟨-, ⟨-, hqueue⟩ | ⟨job, hqueue, -, hkey, -⟩⟩ :=
                  processBody_enqueues lib gunzip _ m request
                · exact .inl hqueue
                · exact .inr ⟨job, hqueue, hallowed, congrArg asString hkey.symm⟩

theorem meteredCalls_event (keyId : String) (s : State) (m : Moment) (request : EventRequest)
    (inputs : List Input) :
    meteredCalls lib gunzip keyId s (.event m request :: inputs) =
      ((meteredCall s m request).filter fun c => c.1 = keyId).toList.map Prod.snd ++
        meteredCalls lib gunzip keyId (step lib gunzip s (.event m request)).2 inputs := rfl

/-- The buckets after calls on one key alone. -/
def afterCalls (keyId : String) (redis : Redis) (calls : List RateCall) : Redis :=
  calls.foldl (fun redis call => (checkRateLimit redis keyId call).2) redis

theorem afterCalls_congr {redis redis' : Redis} {keyId : String} (calls : List RateCall)
    (h : redis' (bucketKey keyId) = redis (bucketKey keyId)) :
    afterCalls keyId redis' calls (bucketKey keyId) =
      afterCalls keyId redis calls (bucketKey keyId) := by
  induction calls generalizing redis redis' with
  | nil => exact h
  | cons call calls ih => exact ih (allows_congr h).2

/-- Nothing but the key's own calls changes its bucket. -/
theorem bucket_of_own_calls (lib : Libraries)
    (gunzip : Gzip.Bytes → Except Gzip.IngestError Gzip.Bytes) (keyId : String) (s : State)
    (inputs : List Input) :
    (run lib gunzip s inputs).redis (bucketKey keyId) =
      afterCalls keyId s.redis (meteredCalls lib gunzip keyId s inputs) (bucketKey keyId) := by
  induction inputs generalizing s with
  | nil => rfl
  | cons input inputs ih =>
      rw [run_cons, ih]
      cases input with
      | call srv draw call => rfl
      | event m request =>
          have hmetered := ingestEvent_metered lib gunzip s m request
          have hstep : (step lib gunzip s (.event m request)).2 =
              (ingestEvent lib gunzip s m request).2 := rfl
          rw [meteredCalls_event, hstep]
          cases hcall : meteredCall s m request with
          | none =>
              rw [hcall] at hmetered
              rw [hmetered.1]
              rfl
          | some metered =>
              obtain ⟨other, call⟩ := metered
              rw [hcall] at hmetered
              rw [hmetered.1, Option.filter_some]
              by_cases hkey : other = keyId
              · subst hkey
                rw [if_pos (decide_eq_true rfl)]
                rfl
              · rw [if_neg (by simpa using hkey)]
                exact afterCalls_congr _ (bucket_untouched hkey)

/-- The events enqueued under a key are at most what the limiter allows on the key's own calls. -/
theorem queued_le_allowed (lib : Libraries)
    (gunzip : Gzip.Bytes → Except Gzip.IngestError Gzip.Bytes) (keyId : String) (s : State)
    (inputs : List Input) :
    ∃ jobs, (run lib gunzip s inputs).queue = s.queue ++ jobs ∧
      (jobs.filter fun job => asString job.dsnKeyId = keyId).length ≤
        allowedCount keyId s.redis (meteredCalls lib gunzip keyId s inputs) := by
  induction inputs generalizing s with
  | nil => exact ⟨[], (List.append_nil _).symm, Nat.zero_le _⟩
  | cons input inputs ih =>
      obtain ⟨jobs, hqueue, hcount⟩ := ih (step lib gunzip s input).2
      rw [run_cons, hqueue]
      cases input with
      | call srv draw call => exact ⟨jobs, rfl, hcount⟩
      | event m request =>
          have hmetered := ingestEvent_metered lib gunzip s m request
          have hstep : (step lib gunzip s (.event m request)).2 =
              (ingestEvent lib gunzip s m request).2 := rfl
          rw [meteredCalls_event]
          cases hcall : meteredCall s m request with
          | none =>
              rw [hcall] at hmetered
              obtain ⟨hredis, hsame⟩ := hmetered
              rw [hstep, hredis] at hcount
              exact ⟨jobs, congrArg (· ++ jobs) hsame, hcount⟩
          | some metered =>
              obtain ⟨other, call⟩ := metered
              rw [hcall] at hmetered
              obtain ⟨hredis, hqueued⟩ := hmetered
              rw [hstep, hredis] at hcount
              rw [Option.filter_some]
              by_cases hkey : other = keyId
              · subst hkey
                rw [if_pos (decide_eq_true rfl), Option.toList_some, List.map_singleton,
                  List.singleton_append, allowedCount_cons]
                obtain hsame | ⟨job, hone, hallowed, -⟩ := hqueued
                · exact ⟨jobs, congrArg (· ++ jobs) hsame, hcount.trans (Nat.le_add_left _ _)⟩
                · refine ⟨job :: jobs, ?_, ?_⟩
                  · exact (congrArg (· ++ jobs) hone).trans (List.append_assoc _ _ _)
                  · have hfirst := List.length_filter_le
                      (fun job : EventJob => asString job.dsnKeyId = other) [job]
                    rw [← List.singleton_append, List.filter_append, List.length_append,
                      if_pos hallowed]
                    exact Nat.add_le_add hfirst hcount
              · have hbucket : (checkRateLimit s.redis other call).2 (bucketKey keyId) =
                    s.redis (bucketKey keyId) := bucket_untouched hkey
                rw [allowedCount_congr _ hbucket] at hcount
                rw [if_neg (by simpa using hkey), Option.toList_none, List.map_nil,
                  List.nil_append]
                obtain hsame | ⟨job, hone, -, hother⟩ := hqueued
                · exact ⟨jobs, congrArg (· ++ jobs) hsame, hcount⟩
                · refine ⟨job :: jobs, ?_, ?_⟩
                  · exact (congrArg (· ++ jobs) hone).trans (List.append_assoc _ _ _)
                  · rw [List.filter_cons, if_neg (by simpa [← hother] using hkey)]
                    exact hcount

/-- Along any run, a key has its bucket to itself: other keys, requests that fail to authenticate,
rejected bodies and calls of the dashboard leave it as the limiter does on the key's own calls, and
what is enqueued under the key is within what the limiter allows on these. -/
theorem key_keeps_its_allowance (lib : Libraries)
    (gunzip : Gzip.Bytes → Except Gzip.IngestError Gzip.Bytes) (keyId : String) (s : State)
    (inputs : List Input) :
    let calls := meteredCalls lib gunzip keyId s inputs
    (run lib gunzip s inputs).redis (bucketKey keyId) =
        afterCalls keyId s.redis calls (bucketKey keyId) ∧
      ∃ jobs, (run lib gunzip s inputs).queue = s.queue ++ jobs ∧
        (jobs.filter fun job => asString job.dsnKeyId = keyId).length ≤
          allowedCount keyId s.redis calls :=
  ⟨bucket_of_own_calls lib gunzip keyId s inputs, queued_le_allowed lib gunzip keyId s inputs⟩

end Allowance

section Sample

def sampleGateLibraries : Libraries :=
  { Tenant.sampleLibraries with
    rt := { sampleRuntime with
      jsonLoads := fun _ => .ok (.obj (sampleCall none sampleEventId 0).envelope) } }

def noGzip : Gzip.Bytes → Except Gzip.IngestError Gzip.Bytes := fun _ => .error .malformedBody

def sampleState : State := ⟨Tenant.twoOrganisations, fun _ => none, [], []⟩

def sampleMoment : Moment := ⟨⟨0, 0⟩, 0, py "now", fun _ => false⟩

/-- An event for project 3, with its key. -/
def sampleRequest : EventRequest := ⟨3, some (py "k"), none, []⟩

def sampleRevocation : Input :=
  .call Tenant.sampleServer ⟨7, [], 8, 0⟩ (.revokeDsnKey 1 3 5 none)

theorem sample_event_is_queued :
    ∃ jobs, (run sampleGateLibraries noGzip sampleState [.event sampleMoment sampleRequest]).queue =
        sampleState.queue ++ jobs ∧
      jobs.map (fun job => job.envelope.get "event_id") =
        promisedIds (answers sampleGateLibraries noGzip sampleState
          [.event sampleMoment sampleRequest]) ∧
      ∀ job ∈ jobs, Entered sampleGateLibraries noGzip sampleState
        [.event sampleMoment sampleRequest] job :=
  promised_events_are_queued sampleGateLibraries noGzip sampleState
    [.event sampleMoment sampleRequest] Tenant.twoOrganisations_consistent

theorem sample_key_is_closed :
    ∃ decision, ingestEvent sampleGateLibraries noGzip
        (run sampleGateLibraries noGzip sampleState ([] ++ sampleRevocation :: [])) sampleMoment
        sampleRequest =
      reject (run sampleGateLibraries noGzip sampleState ([] ++ sampleRevocation :: []))
        sampleRequest.projectId decision 401 none none :=
  revoked_key_opens_nothing sampleGateLibraries noGzip sampleState [] []
    ⟨5, 1, 3, ⟨py "k", rfl⟩, true, none, 0⟩ Tenant.sampleServer ⟨7, [], 8, 0⟩ none true sampleMoment
    sampleRequest Tenant.twoOrganisations_consistent (by unfold Tenant.Db.KeysUnique; decide)
    List.mem_cons_self (by decide +kernel) (fun _ h => nomatch h) rfl rfl

/-- The event before the revocation is enqueued, the one after it is not. -/
example :
    (run sampleGateLibraries noGzip sampleState [.event sampleMoment sampleRequest,
      sampleRevocation, .event sampleMoment sampleRequest]).log.map Line.decision =
      ["accepted", "invalid_key"] := by
  decide +kernel

end Sample

end Crashlens.Edge
