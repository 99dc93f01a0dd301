import Crashlens.AuditedServices
import Crashlens.Decompression
import Crashlens.Ingest
import Crashlens.RateLimit

/-!
# The ingest route

One request after the other: the key is authenticated, the bucket of the key pays, the project's
sampling decides, and only then is the body read, unpacked, parsed and validated. What passes is
enqueued with the ids of the key's own row. `Edge` is what the route works on: the tables, the
buckets, the queue of the worker and the log. `Moment` is what one request meets: the clocks, the
roll of the dice, and the services that fail it.
-/

namespace Crashlens.Edge

open RowSecurity
open Tenant (DsnKey ServiceError Libraries)

/-- What the job `process_event` is enqueued with. -/
structure EventJob where
  envelope : Dict
  orgId : PyStr
  projectId : PyStr
  dsnKeyId : PyStr
  receivedAt : PyStr

/-- The log line: the project, the decision class and a size, nothing else. -/
structure Line where
  projectId : ℕ
  decision : String
  size : Option ℕ
  deriving DecidableEq

structure State where
  db : Tenant.Db
  redis : Redis
  queue : List EventJob
  log : List Line

/-- Headers and body of a request to `/ingest/{project_id}/`. -/
structure EventRequest where
  projectId : ℕ
  key : Option PyStr
  contentEncoding : Option PyStr
  body : Gzip.Bytes

inductive Stage where
  | database
  | redis
  | body
  | queue
  deriving DecidableEq

structure Moment where
  call : RateCall
  roll : ℚ
  receivedAt : PyStr
  fails : Stage → Bool

/-- A rejection, an acceptance with its `id`, or an error the route does not catch. -/
inductive Response where
  | rejected (status : ℕ) (detail : String) (retryAfter : Option ℤ)
  | accepted (id : Json)
  | serverError

def Response.status : Response → ℕ
  | .rejected status _ _ => status
  | .accepted _ => 202
  | .serverError => 500

def detailOf (status : ℕ) : String :=
  if status = 400 then "Invalid event payload."
  else if status = 401 then "Unauthorized."
  else if status = 403 then "Forbidden."
  else if status = 413 then "Payload too large."
  else "Too many requests."

def State.logged (s : State) (projectId : ℕ) (decision : String) (size : Option ℕ) : State :=
  { s with log := s.log ++ [⟨projectId, decision, size⟩] }

/-- `_reject` -/
def reject (s : State) (projectId : ℕ) (decision : String) (status : ℕ) (size : Option ℕ)
    (retryAfter : Option ℤ) : Response × State :=
  (.rejected status (detailOf status) retryAfter, s.logged projectId decision size)

/-! ## The key -/

structure DsnKeyRecord where
  id : ℕ
  orgId : ℕ
  projectId : ℕ
  active : Bool
  samplingRate : PyFloat

/-- The rows of `dsn_keys` joined to `projects`, outside the policy. -/
def keyRecords (db : Tenant.Db) (publicKey : Text) : List DsnKeyRecord :=
  (select .bypass (fun k => k.publicKey = publicKey) db.dsnKeys).flatMap fun k =>
    (select .bypass (fun p => p.id = k.projectId) db.projects).map fun p =>
      ⟨k.id, k.orgId, k.projectId, k.active, p.samplingRate⟩

def resolveDsnKey (db : Tenant.Db) (publicKey : PyStr) :
    Except ServiceError (Option DsnKeyRecord) := do
  let publicKey ← Tenant.bindText publicKey
  match keyRecords db publicKey with
  | [] => .ok none
  | [record] => .ok (some record)
  | _ => .error .multipleResults

def asString (s : PyStr) : String := String.ofList (s.map fun c => Char.ofNat c.val)

/-- `str(record.id)`, in the name of the key's bucket. -/
def keyIdString (id : ℕ) : String := asString (uuidStr id)

/-! ## Sampling -/

/-- `x >= y` of an exact number and a float. -/
def atLeast (x : ℚ) : PyFloat → Bool
  | .finite negative q => if negative then -q ≤ x else q ≤ x
  | .infinite negative => negative
  | .nan => false

/-- `x >= 1.0` -/
def atLeastOne : PyFloat → Bool
  | .finite negative q => !negative && 1 ≤ q
  | .infinite negative => !negative
  | .nan => false

def sampledOut (samplingRate : PyFloat) (roll : ℚ) : Bool :=
  if atLeastOne samplingRate then false else atLeast roll samplingRate

/-! ## The body -/

section Body

variable (lib : Libraries) (gunzip : Gzip.Bytes → Except Gzip.IngestError Gzip.Bytes)

/-- The body without its encoding, or the decision and the status of a rejection. -/
def readBody (request : EventRequest) : Except (String × ℕ) Gzip.Bytes :=
  let encoding := lib.lower (request.contentEncoding.getD [])
  if py "gzip" <:+: encoding then
    match gunzip request.body with
    | .ok body => .ok body
    | .error .payloadTooLarge => .error ("too_large", 413)
    | .error .malformedBody => .error ("malformed_gzip", 400)
  else if Gzip.maxDecompressedBytes < request.body.length then .error ("too_large", 413)
  else .ok request.body

/-- What is read is within the cap, encoded or not, when `gunzip` is `decompress_gzip`. -/
theorem readBody_within_cap {σ : Type} {d : Gzip.Decompressor σ} (hgunzip : d.Runs gunzip)
    {request : EventRequest} {body : Gzip.Bytes} (h : readBody lib gunzip request = .ok body) :
    body.length ≤ Gzip.maxDecompressedBytes := by
  unfold readBody at h
  dsimp only at h
  split at h
  · split at h
    · next unpacked hunpacked =>
        cases h
        obtain ⟨n, out, hdone⟩ := hgunzip request.body
        rw [hunpacked] at hdone
        exact Gzip.result_within_cap hdone
    · cases h
    · cases h
  · split at h
    · cases h
    · next hlength =>
        cases h
        exact not_lt.mp hlength

/-- The decision of a rejection with status 400, or an error the route does not catch. -/
inductive Refusal where
  | rejected (decision : String)
  | uncaught (e : PyError)

def parseJson (body : Gzip.Bytes) : Except Refusal Dict :=
  match lib.rt.jsonLoads body with
  | .ok (.obj envelope) => .ok envelope
  | .ok _ => .error (.rejected "invalid_envelope")
  | .error .valueError => .error (.rejected "malformed_json")
  | .error e => .error (.uncaught e)

def readEnvelope (body : Gzip.Bytes) : Except Refusal Dict := do
  let envelope ← parseJson lib body
  match validateEnvelope lib.rt envelope with
  | .ok () => .ok envelope
  | .error (.invalidEnvelope _) => .error (.rejected "invalid_envelope")
  | .error e => .error (.uncaught e)

end Body

/-! ## The route -/

section Route

variable (lib : Libraries) (gunzip : Gzip.Bytes → Except Gzip.IngestError Gzip.Bytes)

/-- `pickle.dumps` can follow the envelope of a job to its leaves. -/
def Picklable (rt : Runtime) (envelope : Dict) : Prop :=
  (Json.obj envelope).depth 1 ≤ rt.room.pickle

instance (rt : Runtime) (envelope : Dict) : Decidable (Picklable rt envelope) :=
  inferInstanceAs (Decidable (_ ≤ _))

/-- Step 6, with the ids of the row the key was found in. -/
def enqueue (s : State) (m : Moment) (record : DsnKeyRecord) (projectId : ℕ) (envelope : Dict)
    (size : ℕ) : Response × State :=
  if m.fails .queue = true ∨ ¬ Picklable lib.rt envelope then (.serverError, s)
  else
    let job : EventJob :=
      { envelope
        orgId := uuidStr record.orgId
        projectId := uuidStr record.projectId
        dsnKeyId := uuidStr record.id
        receivedAt := m.receivedAt }
    (.accepted (envelope.get "event_id"),
      State.logged { s with queue := s.queue ++ [job] } projectId "accepted" (some size))

/-- Steps 4 and 5. -/
def processBody (s : State) (m : Moment) (record : DsnKeyRecord) (request : EventRequest) :
    Response × State :=
  if m.fails .body then (.serverError, s)
  else
    match readBody lib gunzip request with
    | .error (decision, status) =>
      reject s request.projectId decision status (some request.body.length) none
    | .ok body =>
      match readEnvelope lib body with
      | .error (.rejected decision) =>
        reject s request.projectId decision 400 (some body.length) none
      | .error (.uncaught _) => (.serverError, s)
      | .ok envelope => enqueue lib s m record request.projectId envelope body.length

/-- Steps 2 and 3. -/
def throttle (s : State) (m : Moment) (record : DsnKeyRecord) (request : EventRequest) :
    Response × State :=
  if m.fails .redis then (.serverError, s)
  else
    match checkRateLimit s.redis (keyIdString record.id) m.call with
    | (decision, redis) =>
      let s := { s with redis := redis }
      if !decision.allowed then
        reject s request.projectId "rate_limited" 429 none (some decision.retryAfter)
      else if sampledOut record.samplingRate m.roll then
        (.accepted .null, s.logged request.projectId "sampled" none)
      else processBody lib gunzip s m record request

/-- Step 1. -/
def authenticate (s : State) (m : Moment) (request : EventRequest) :
    Except (Response × State) DsnKeyRecord :=
  let key := request.key.getD []
  if key.isEmpty then .error (reject s request.projectId "missing_key" 401 none none)
  else if m.fails .database then .error (.serverError, s)
  else
    match resolveDsnKey s.db key with
    | .error _ => .error (.serverError, s)
    | .ok none => .error (reject s request.projectId "invalid_key" 401 none none)
    | .ok (some record) =>
      if !record.active then .error (reject s request.projectId "invalid_key" 401 none none)
      else if uuidStr record.projectId ≠ uuidStr request.projectId then
        .error (reject s request.projectId "project_mismatch" 403 none none)
      else .ok record

def ingestEvent (s : State) (m : Moment) (request : EventRequest) : Response × State :=
  match authenticate s m request with
  | .error outcome => outcome
  | .ok record => throttle lib gunzip s m record request

end Route

end Crashlens.Edge
