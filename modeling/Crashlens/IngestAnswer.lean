import Crashlens.Acceptance
import Crashlens.IngestRuns

/-!
# The answer to an event

The ingest route catches `MalformedBody` and `InvalidEnvelope` and nothing else once it has the
body. A level that is a list or an object cannot be looked up in the set of levels, and the
`TypeError` of that lookup is answered 500. So is the `RecursionError` of a body that is nested too
deep to be parsed, or to be pickled for the worker.
-/

namespace Crashlens

open Edge (State Moment EventRequest Refusal Picklable)
open Tenant (Libraries)

/-- Lists and objects have no hash. -/
def Json.hashable : Json → Bool
  | .arr _ => false
  | .obj _ => false
  | _ => true

def RaisesOnlyInvalid (x : Except PyError Unit) : Prop :=
  ∀ e, x = .error e → ∃ detail, e = .invalidEnvelope detail

def NonemptyStr (v : Json) : Prop := ∃ c cs, v = .str (c :: cs)

/-- What the validation asks for. -/
structure ValidEvent (rt : Runtime) (envelope : Dict) : Prop where
  eventId : ∃ s, envelope.get "event_id" = .str s ∧ uuidOk rt s = true
  timestamp : ∃ s, envelope.get "timestamp" = .str s ∧ isRfc3339 rt s = true
  platform : NonemptyStr (envelope.get "platform")
  level : ∃ s ∈ validLevels, envelope.get "level" = .str s
  environment : NonemptyStr (envelope.get "environment")
  sdk : ∃ sdk : Dict, envelope.get "sdk" = .obj sdk ∧ NonemptyStr (sdk.get "name") ∧
    NonemptyStr (sdk.get "version")
  message : envelope.get "message" = .null ∨ ∃ s, envelope.get "message" = .str s
  exception : envelope.get "exception" = .null ∨ ∃ exception,
    envelope.get "exception" = .obj exception
  either : envelope.get "message" ≠ .null ∨ envelope.get "exception" ≠ .null

section Checks

variable {rt : Runtime} {envelope : Dict}

theorem raisesOnlyInvalid_ok : RaisesOnlyInvalid (.ok ()) := fun _ h => nomatch h

theorem raisesOnlyInvalid_error (detail : String) :
    RaisesOnlyInvalid (.error (.invalidEnvelope detail)) := by
  intro e h
  cases h
  exact ⟨detail, rfl⟩

theorem not_raisesOnlyInvalid_typeError : ¬ RaisesOnlyInvalid (.error .typeError) :=
  fun h => nomatch h _ rfl

theorem raisesOnlyInvalid_bind {x : Except PyError Unit} {f : Unit → Except PyError Unit} :
    RaisesOnlyInvalid (x >>= f) ↔
      RaisesOnlyInvalid x ∧ (x = .ok () → RaisesOnlyInvalid (f ())) := by
  cases x with
  | error e => exact ⟨fun h => ⟨h, fun hok => nomatch hok⟩, fun h => h.1⟩
  | ok _ => exact ⟨fun h => ⟨raisesOnlyInvalid_ok, fun _ => h⟩, fun h => h.2 rfl⟩

theorem raisesOnlyInvalid_requireNonemptyStr (d : Dict) (key field : String) :
    RaisesOnlyInvalid (requireNonemptyStr d key field) := by
  unfold requireNonemptyStr
  split
  · exact raisesOnlyInvalid_ok
  · exact raisesOnlyInvalid_error _

theorem raisesOnlyInvalid_checkEventId : RaisesOnlyInvalid (checkEventId rt envelope) := by
  unfold checkEventId
  split
  · split_ifs
    · exact raisesOnlyInvalid_ok
    · exact raisesOnlyInvalid_error _
  · exact raisesOnlyInvalid_error _

theorem raisesOnlyInvalid_checkTimestamp : RaisesOnlyInvalid (checkTimestamp rt envelope) := by
  unfold checkTimestamp
  split
  · split_ifs
    · exact raisesOnlyInvalid_ok
    · exact raisesOnlyInvalid_error _
  · exact raisesOnlyInvalid_error _

/-- The one check that looks a value up before it knows its type. -/
theorem raisesOnlyInvalid_checkLevel :
    RaisesOnlyInvalid (checkLevel envelope) ↔ (envelope.get "level").hashable = true := by
  unfold checkLevel
  cases envelope.get "level" with
  | str s =>
      dsimp only
      split_ifs
      · exact iff_of_true raisesOnlyInvalid_ok rfl
      · exact iff_of_true (raisesOnlyInvalid_error _) rfl
  | arr xs => exact iff_of_false not_raisesOnlyInvalid_typeError Bool.false_ne_true
  | obj kvs => exact iff_of_false not_raisesOnlyInvalid_typeError Bool.false_ne_true
  | _ => exact iff_of_true (raisesOnlyInvalid_error _) rfl

theorem raisesOnlyInvalid_checkSdk : RaisesOnlyInvalid (checkSdk envelope) := by
  unfold checkSdk
  split
  · exact raisesOnlyInvalid_bind.mpr ⟨raisesOnlyInvalid_requireNonemptyStr _ _ _,
      fun _ => raisesOnlyInvalid_requireNonemptyStr _ _ _⟩
  · exact raisesOnlyInvalid_error _

theorem raisesOnlyInvalid_checkBody : RaisesOnlyInvalid (checkBody envelope) := by
  unfold checkBody
  split
  · exact raisesOnlyInvalid_error _
  · exact raisesOnlyInvalid_ok
  · exact raisesOnlyInvalid_ok
  · exact raisesOnlyInvalid_ok
  · exact raisesOnlyInvalid_error _
  · exact raisesOnlyInvalid_error _
  · exact raisesOnlyInvalid_error _

theorem checkEventId_eq_ok : checkEventId rt envelope = .ok () ↔
    ∃ s, envelope.get "event_id" = .str s ∧ uuidOk rt s = true := by
  constructor
  · exact checkEventId_ok
  · rintro ⟨s, hget, hs⟩
    simp only [checkEventId, hget, hs, if_true]

theorem checkTimestamp_eq_ok : checkTimestamp rt envelope = .ok () ↔
    ∃ s, envelope.get "timestamp" = .str s ∧ isRfc3339 rt s = true := by
  constructor
  · intro h
    unfold checkTimestamp at h
    split at h
    · next s hget =>
        split_ifs at h with hs
        exact ⟨s, hget, hs⟩
    · cases h
  · rintro ⟨s, hget, hs⟩
    simp only [checkTimestamp, hget, hs, if_true]

theorem requireNonemptyStr_eq_ok {d : Dict} {key field : String} :
    requireNonemptyStr d key field = .ok () ↔ NonemptyStr (d.get key) := by
  constructor
  · exact requireNonemptyStr_ok
  · rintro ⟨c, cs, hget⟩
    simp only [requireNonemptyStr, hget]

theorem checkLevel_eq_ok : checkLevel envelope = .ok () ↔
    ∃ s ∈ validLevels, envelope.get "level" = .str s := by
  constructor
  · intro h
    obtain ⟨s, hget, hs⟩ := checkLevel_ok h
    exact ⟨s, hs, hget⟩
  · rintro ⟨s, hs, hget⟩
    simp only [checkLevel, hget, hs, if_true]

theorem checkSdk_eq_ok : checkSdk envelope = .ok () ↔
    ∃ sdk : Dict, envelope.get "sdk" = .obj sdk ∧ NonemptyStr (sdk.get "name") ∧
      NonemptyStr (sdk.get "version") := by
  constructor
  · intro h
    unfold checkSdk at h
    split at h
    · next sdk hget =>
        obtain ⟨_, hname, hversion⟩ := bind_ok h
        exact ⟨sdk, hget, requireNonemptyStr_eq_ok.mp hname, requireNonemptyStr_eq_ok.mp hversion⟩
    · cases h
  · rintro ⟨sdk, hget, hname, hversion⟩
    simp only [checkSdk, hget]
    rw [requireNonemptyStr_eq_ok.mpr hname]
    exact requireNonemptyStr_eq_ok.mpr hversion

theorem checkBody_eq_ok : checkBody envelope = .ok () ↔
    (envelope.get "message" = .null ∨ ∃ s, envelope.get "message" = .str s) ∧
      (envelope.get "exception" = .null ∨ ∃ exception, envelope.get "exception" = .obj exception) ∧
      (envelope.get "message" ≠ .null ∨ envelope.get "exception" ≠ .null) := by
  unfold checkBody
  cases envelope.get "message" <;> cases envelope.get "exception" <;> simp

theorem validateEnvelope_ok_iff : validateEnvelope rt envelope = .ok () ↔
    ValidEvent rt envelope := by
  constructor
  · intro h
    obtain ⟨_, heventId, h⟩ := bind_ok h
    obtain ⟨_, htimestamp, h⟩ := bind_ok h
    obtain ⟨_, hplatform, h⟩ := bind_ok h
    obtain ⟨_, hlevel, h⟩ := bind_ok h
    obtain ⟨_, henvironment, h⟩ := bind_ok h
    obtain ⟨_, hsdk, hbody⟩ := bind_ok h
    obtain ⟨hmessage, hexception, heither⟩ := checkBody_eq_ok.mp hbody
    exact ⟨checkEventId_eq_ok.mp heventId, checkTimestamp_eq_ok.mp htimestamp,
      requireNonemptyStr_eq_ok.mp hplatform, checkLevel_eq_ok.mp hlevel,
      requireNonemptyStr_eq_ok.mp henvironment, checkSdk_eq_ok.mp hsdk, hmessage, hexception,
      heither⟩
  · intro h
    unfold validateEnvelope
    rw [checkEventId_eq_ok.mpr h.eventId, checkTimestamp_eq_ok.mpr h.timestamp,
      requireNonemptyStr_eq_ok.mpr h.platform, checkLevel_eq_ok.mpr h.level,
      requireNonemptyStr_eq_ok.mpr h.environment, checkSdk_eq_ok.mpr h.sdk]
    exact checkBody_eq_ok.mpr ⟨h.message, h.exception, h.either⟩

end Checks

/-- A list or an object as the level comes with an event id, a timestamp or a platform that is
rejected before it. -/
def LevelHashable (rt : Runtime) (envelope : Dict) : Prop :=
  (∃ s, envelope.get "event_id" = .str s ∧ uuidOk rt s = true) →
    (∃ s, envelope.get "timestamp" = .str s ∧ isRfc3339 rt s = true) →
      NonemptyStr (envelope.get "platform") → (envelope.get "level").hashable = true

theorem raisesOnlyInvalid_validateEnvelope (rt : Runtime) (envelope : Dict) :
    RaisesOnlyInvalid (validateEnvelope rt envelope) ↔ LevelHashable rt envelope := by
  have hrest : RaisesOnlyInvalid (do
      requireNonemptyStr envelope "environment" "environment"
      checkSdk envelope
      checkBody envelope) :=
    raisesOnlyInvalid_bind.mpr ⟨raisesOnlyInvalid_requireNonemptyStr _ _ _,
      fun _ => raisesOnlyInvalid_bind.mpr ⟨raisesOnlyInvalid_checkSdk,
        fun _ => raisesOnlyInvalid_checkBody⟩⟩
  unfold validateEnvelope LevelHashable
  rw [raisesOnlyInvalid_bind, raisesOnlyInvalid_bind, raisesOnlyInvalid_bind,
    raisesOnlyInvalid_bind, checkEventId_eq_ok, checkTimestamp_eq_ok, requireNonemptyStr_eq_ok,
    raisesOnlyInvalid_checkLevel]
  constructor
  · rintro ⟨-, hid⟩ heventId htimestamp hplatform
    exact (((hid heventId).2 htimestamp).2 hplatform).1
  · intro h
    exact ⟨raisesOnlyInvalid_checkEventId, fun heventId => ⟨raisesOnlyInvalid_checkTimestamp,
      fun htimestamp => ⟨raisesOnlyInvalid_requireNonemptyStr _ _ _,
        fun hplatform => ⟨h heventId htimestamp hplatform, fun _ => hrest⟩⟩⟩⟩

/-! ## The route from the body on -/

/-- The body is a text of the object: `json.loads` gives it back, unless it is nested too deep. -/
def Runtime.Spells (rt : Runtime) (body : Gzip.Bytes) (envelope : Dict) : Prop :=
  rt.jsonLoads body =
    if (Json.obj envelope).depth 0 ≤ rt.room.loads then .ok (.obj envelope)
    else .error .recursionError

/-- The request gets as far as its body: its key is in use and has tokens left, the sampling keeps
it, no service fails, and the body can be unpacked. -/
structure ReachesBody (lib : Libraries) (gunzip : Gzip.Bytes → Except Gzip.IngestError Gzip.Bytes)
    (s : State) (m : Moment) (request : EventRequest) (body : Gzip.Bytes) : Prop where
  works : ∀ stage, m.fails stage = false
  admitted : ∃ record, Edge.authenticate s m request = .ok record ∧
    (checkRateLimit s.redis (Edge.keyIdString record.id) m.call).1.allowed = true ∧
    Edge.sampledOut record.samplingRate m.roll = false
  unpacked : Edge.readBody lib gunzip request = .ok body

/-- The status that goes with what the body is read as. -/
def statusOf (rt : Runtime) : Except Refusal Dict → ℕ
  | .error (.rejected _) => 400
  | .error (.uncaught _) => 500
  | .ok envelope => if Picklable rt envelope then 202 else 500

section Route

variable {lib : Libraries} {gunzip : Gzip.Bytes → Except Gzip.IngestError Gzip.Bytes} {s : State}
  {m : Moment} {request : EventRequest} {body : Gzip.Bytes} {envelope : Dict}

theorem ingestEvent_status (h : ReachesBody lib gunzip s m request body) :
    (Edge.ingestEvent lib gunzip s m request).1.status =
      statusOf lib.rt (Edge.readEnvelope lib body) := by
  obtain ⟨record, hauth, hallowed, hkept⟩ := h.admitted
  have hredis : ¬ m.fails .redis = true := by rw [h.works]; exact Bool.false_ne_true
  have hbody : ¬ m.fails .body = true := by rw [h.works]; exact Bool.false_ne_true
  have hthrottle : Edge.ingestEvent lib gunzip s m request =
      Edge.processBody lib gunzip
        { s with redis := (checkRateLimit s.redis (Edge.keyIdString record.id) m.call).2 } m record
        request := by
    rw [Edge.ingestEvent, hauth]
    dsimp only
    rw [Edge.throttle, if_neg hredis]
    dsimp only
    rw [hallowed, hkept]
    rfl
  rw [hthrottle, Edge.processBody, if_neg hbody, h.unpacked]
  dsimp only
  cases hread : Edge.readEnvelope lib body with
  | error refusal => cases refusal <;> rfl
  | ok read =>
      dsimp only [statusOf]
      rw [Edge.enqueue, h.works]
      by_cases hpickle : Picklable lib.rt read
      · rw [if_neg (by simpa using hpickle), if_pos hpickle]
        rfl
      · rw [if_pos (.inr hpickle), if_neg hpickle]
        rfl

theorem status_readEnvelope_iff (htext : lib.rt.Spells body envelope) :
    statusOf lib.rt (Edge.readEnvelope lib body) ∈ [202, 400] ↔
      (Json.obj envelope).depth 0 ≤ lib.rt.room.loads ∧
        RaisesOnlyInvalid (validateEnvelope lib.rt envelope) ∧
        (validateEnvelope lib.rt envelope = .ok () → Picklable lib.rt envelope) := by
  have hnot : 500 ∉ [202, 400] := by decide
  by_cases hdepth : (Json.obj envelope).depth 0 ≤ lib.rt.room.loads
  · have hparse : Edge.parseJson lib body = .ok envelope := by
      rw [Edge.parseJson, htext, if_pos hdepth]
    rw [Edge.readEnvelope, hparse, and_iff_right hdepth]
    dsimp only [bind, Except.bind]
    cases validateEnvelope lib.rt envelope with
    | ok _ =>
        rw [and_iff_right raisesOnlyInvalid_ok]
        dsimp only [statusOf]
        split_ifs with hpickle
        · exact iff_of_true List.mem_cons_self fun _ => hpickle
        · exact iff_of_false hnot fun h => hpickle (h rfl)
    | error e =>
        have hvacuous : (.error e : Except PyError Unit) = .ok () → Picklable lib.rt envelope :=
          fun h => by cases h
        rw [and_iff_left hvacuous]
        cases e with
        | invalidEnvelope detail =>
            exact iff_of_true (List.mem_cons_of_mem _ List.mem_cons_self)
              (raisesOnlyInvalid_error detail)
        | _ => exact iff_of_false hnot fun h => by cases (h _ rfl).choose_spec
  · have hparse : Edge.parseJson lib body = .error (.uncaught .recursionError) := by
      rw [Edge.parseJson, htext, if_neg hdepth]
    rw [Edge.readEnvelope, hparse]
    exact iff_of_false hnot fun h => hdepth h.1

/-- Validation returns or raises `InvalidEnvelope` exactly for the envelopes whose level can be
looked up, and the route answers 202 or 400 exactly for those of them that are not too deep to be
parsed and, once valid, to be pickled. -/
theorem validation_total_iff (hreaches : ReachesBody lib gunzip s m request body)
    (htext : lib.rt.Spells body envelope) :
    (RaisesOnlyInvalid (validateEnvelope lib.rt envelope) ↔ LevelHashable lib.rt envelope) ∧
      ((Edge.ingestEvent lib gunzip s m request).1.status ∈ [202, 400] ↔
        (Json.obj envelope).depth 0 ≤ lib.rt.room.loads ∧ LevelHashable lib.rt envelope ∧
          (ValidEvent lib.rt envelope → Picklable lib.rt envelope)) := by
  have hvalidate := raisesOnlyInvalid_validateEnvelope lib.rt envelope
  refine ⟨hvalidate, ?_⟩
  rw [ingestEvent_status hreaches, status_readEnvelope_iff htext, hvalidate,
    validateEnvelope_ok_iff]

end Route

section Sample

/-- The text of an event without special characters. -/
def sampleText (envelope : Dict) : Gzip.Bytes :=
  (sampleRuntime.dumps (.obj envelope)).map fun c => UInt8.ofNat c.val

/-- `json.loads` on the text of one event. -/
def textLibraries (envelope : Dict) : Libraries :=
  { Tenant.sampleLibraries with
    rt := { sampleRuntime with
      jsonLoads := fun body =>
        if body ≠ sampleText envelope then .error .valueError
        else if (Json.obj envelope).depth 0 ≤ sampleRuntime.room.loads then .ok (.obj envelope)
        else .error .recursionError } }

theorem textLibraries_spells (envelope : Dict) :
    (textLibraries envelope).rt.Spells (sampleText envelope) envelope :=
  if_neg (not_not.mpr rfl)

/-- An event for project 3, with its key. -/
def textRequest (envelope : Dict) : EventRequest :=
  { Edge.sampleRequest with body := sampleText envelope }

theorem textRequest_reachesBody (envelope : Dict)
    (hlength : (sampleText envelope).length ≤ Gzip.maxDecompressedBytes) :
    ReachesBody (textLibraries envelope) Edge.noGzip Edge.sampleState Edge.sampleMoment
      (textRequest envelope) (sampleText envelope) where
  works _ := rfl
  admitted := by
    obtain ⟨record, hauth, hadmitted⟩ : ∃ record,
        Edge.authenticate Edge.sampleState Edge.sampleMoment Edge.sampleRequest = .ok record ∧
          (checkRateLimit Edge.sampleState.redis (Edge.keyIdString record.id)
            Edge.sampleMoment.call).1.allowed = true ∧
          Edge.sampledOut record.samplingRate Edge.sampleMoment.roll = false :=
      ⟨_, rfl, by decide +kernel, by decide +kernel⟩
    exact ⟨record, hauth, hadmitted⟩
  unpacked := if_neg (not_lt.mpr hlength)

/-- An event like any other is answered 202. -/
theorem sample_event_answered :
    let envelope := (sampleCall none sampleEventId 0).envelope
    (Edge.ingestEvent (textLibraries envelope) Edge.noGzip Edge.sampleState Edge.sampleMoment
      (textRequest envelope)).1.status ∈ [202, 400] := by
  intro envelope
  refine (validation_total_iff (textRequest_reachesBody envelope ?_)
    (textLibraries_spells envelope)).2.mpr ⟨?_, ?_, ?_⟩
  · decide +kernel
  · decide +kernel
  · intro _ _ _
    decide +kernel
  · intro _
    unfold Picklable
    decide +kernel

/-- An event like any other, with a list of levels. -/
theorem level_list_not_rejected :
    let envelope := (sampleCall none sampleEventId 0).envelope.set "level" (.arr [])
    validateEnvelope (textLibraries envelope).rt envelope = .error .typeError ∧
      ¬ RaisesOnlyInvalid (validateEnvelope (textLibraries envelope).rt envelope) ∧
      (Edge.ingestEvent (textLibraries envelope) Edge.noGzip Edge.sampleState Edge.sampleMoment
        (textRequest envelope)).1.status = 500 := by
  intro envelope
  have htype : validateEnvelope (textLibraries envelope).rt envelope = .error .typeError := by
    decide +kernel
  refine ⟨htype, ?_, ?_⟩
  · rw [htype]
    exact not_raisesOnlyInvalid_typeError
  · decide +kernel

end Sample

end Crashlens
