import Crashlens.Sourcemaps

/-!
# The pure half of the event processor

Truncation and caps of the frozen protocol, the fingerprint of the root cause, the issue title and
the regression decision. `prepare` composes them in the order of `process_event`; an error raised in
it makes the event a poison event.
-/

namespace Crashlens

def messageMax : ℕ := 8192
def tagKeyMax : ℕ := 32
def tagValueMax : ℕ := 200
def filenameMax : ℕ := 256
def functionMax : ℕ := 256
def contextLineMax : ℕ := 256
def maxBreadcrumbs : ℕ := 100
def maxFrames : ℕ := 128
def maxCauseDepth : ℕ := 5
def truncationMarker : PyStr := py "..."
def titleMax : ℕ := 200
def fingerprintFrameLimit : ℕ := 8

def truncateString (value : PyStr) (limit : ℕ) : PyStr :=
  if value.length ≤ limit then value
  else value.take (limit - truncationMarker.length) ++ truncationMarker

def truncateIfStr (limit : ℕ) : Json → Json
  | .str s => .str (truncateString s limit)
  | v => v

/-- `xs[-n:]` for `n > 0`. -/
def lastN {α : Type} (n : ℕ) (xs : List α) : List α := xs.drop (xs.length - n)

/-! ## Message normalisation -/

section Message

variable (rt : Runtime)

def isWord (c : CodePoint) : Bool := rt.isAlnum c || c.val = 0x5F

/-- `\b` between a previous and a next character. -/
def wordBoundary (prev next : Option CodePoint) : Bool :=
  (prev.map (isWord rt)).getD false != (next.map (isWord rt)).getD false

/-- `[0-9a-fA-F]` repeated `n` times: the text after it. -/
def hexGroup (n : ℕ) (s : PyStr) : Option PyStr :=
  if (s.take n).length = n ∧ (s.take n).all isHexDigit then some (s.drop n) else none

def hyphen : PyStr → Option PyStr
  | c :: cs => if c.val = 0x2D then some cs else none
  | [] => none

def uuidMatch (_ : Option CodePoint) (s : PyStr) : ℕ :=
  let groups := do
    let s ← hexGroup 8 s >>= hyphen
    let s ← hexGroup 4 s >>= hyphen
    let s ← hexGroup 4 s >>= hyphen
    let s ← hexGroup 4 s >>= hyphen
    hexGroup 12 s
  if groups.isSome then 36 else 0

/-- The longest of the lengths `least`, …, `k` after which `s` has a word boundary: a greedy run
that gives characters back. -/
def backtrack (s : PyStr) (least : ℕ) : ℕ → ℕ
  | 0 => 0
  | k + 1 => if least ≤ k + 1 ∧ wordBoundary rt s[k]? s[k + 1]? then k + 1 else backtrack s least k

def longHexMatch (prev : Option CodePoint) (s : PyStr) : ℕ :=
  if wordBoundary rt prev s.head? then backtrack rt s 16 (s.takeWhile isHexDigit).length else 0

def hexMatch (prev : Option CodePoint) (s : PyStr) : ℕ :=
  match s with
  | z :: x :: rest =>
    if z.val = 0x30 ∧ (x.val = 0x78 ∨ x.val = 0x58) ∧ wordBoundary rt prev (some z) then
      match backtrack rt rest 1 (rest.takeWhile isHexDigit).length with
      | 0 => longHexMatch rt prev s
      | k + 1 => k + 3
    else longHexMatch rt prev s
  | _ => longHexMatch rt prev s

def numMatch (_ : Option CodePoint) (s : PyStr) : ℕ :=
  (s.takeWhile fun c => (rt.decimal c).isSome).length

def normalizeMessage (message : PyStr) : PyStr :=
  let collapsed := substitute uuidMatch (py "<uuid>") none 0 message
  let collapsed := substitute (hexMatch rt) (py "<hex>") none 0 collapsed
  substitute (numMatch rt) (py "<n>") none 0 collapsed

end Message

/-! ## `copy.deepcopy` -/

mutual

/-- Every value takes the call of `deepcopy` and that of the copier of its type. -/
def deepcopy : (calls : ℕ) → Json → Except PyError Json
  | calls, .arr items =>
    if calls < 2 then .error .recursionError
    else do return .arr (← deepcopyItems (calls - 2) items)
  | calls, .obj fields =>
    if calls < 2 then .error .recursionError
    else do return .obj (← deepcopyFields (calls - 2) fields)
  | calls, value => if calls < 2 then .error .recursionError else .ok value

def deepcopyItems : (calls : ℕ) → List Json → Except PyError (List Json)
  | _, [] => .ok []
  | calls, item :: items => do
    return (← deepcopy calls item) :: (← deepcopyItems calls items)

/-- A key is a string; there is room for its copy where there is for that of its value. -/
def deepcopyFields : (calls : ℕ) → Dict → Except PyError Dict
  | _, [] => .ok []
  | calls, (key, value) :: fields => do
    return (key, ← deepcopy calls value) :: (← deepcopyFields calls fields)

end

def deepcopyDict (calls : ℕ) (d : Dict) : Except PyError Dict :=
  if calls < 2 then .error .recursionError else deepcopyFields (calls - 2) d

section Copy

variable {calls : ℕ}

theorem bind_ite_ok {α β : Type} {P : Prop} [Decidable P] {a : α} {e : PyError}
    (f : α → Except PyError β) :
    ((if P then Except.ok a else .error e) >>= f) = if P then f a else .error e := by
  split_ifs <;> rfl

theorem deepcopy_leaf (v : Json) : (if calls < 2 then .error .recursionError else .ok v) =
    (if 2 * 1 ≤ calls then .ok v else .error .recursionError : Except PyError Json) := by
  by_cases h : calls < 2
  · rw [if_pos h, if_neg (by omega)]
  · rw [if_neg h, if_pos (by omega)]

mutual

/-- A copy is the value, where it is nested no deeper than two calls a level allow. -/
theorem deepcopy_eq (calls : ℕ) : ∀ v : Json, deepcopy calls v =
    if 2 * v.depth 1 ≤ calls then .ok v else .error .recursionError
  | .arr items => by
      rw [deepcopy, deepcopyItems_eq, bind_ite_ok, Json.depth]
      split_ifs with h h' h'
      all_goals first | rfl | omega
  | .obj fields => by
      rw [deepcopy, deepcopyFields_eq, bind_ite_ok, Json.depth]
      split_ifs with h h' h'
      all_goals first | rfl | omega
  | .str _ | .float _ | .int _ | .bool _ | .null => deepcopy_leaf _

theorem deepcopyItems_eq (calls : ℕ) : ∀ xs : List Json, deepcopyItems calls xs =
    if 2 * Json.depthItems 1 xs ≤ calls then .ok xs else .error .recursionError
  | [] => rfl
  | x :: xs => by
      rw [deepcopyItems, deepcopy_eq, bind_ite_ok, deepcopyItems_eq, bind_ite_ok, Json.depthItems]
      split_ifs
      all_goals first | rfl | omega

theorem deepcopyFields_eq (calls : ℕ) : ∀ d : Dict, deepcopyFields calls d =
    if 2 * Json.depthFields 1 d ≤ calls then .ok d else .error .recursionError
  | [] => rfl
  | (k, v) :: d => by
      rw [deepcopyFields, deepcopy_eq, bind_ite_ok, deepcopyFields_eq, bind_ite_ok,
        Json.depthFields]
      split_ifs
      all_goals first | rfl | omega

end

theorem deepcopyDict_eq (calls : ℕ) (d : Dict) : deepcopyDict calls d =
    if 2 * (Json.obj d).depth 1 ≤ calls then .ok d else .error .recursionError := by
  rw [deepcopyDict, deepcopyFields_eq, Json.depth]
  split_ifs
  all_goals first | rfl | omega

end Copy

/-! ## Envelope normalisation -/

def truncateField (key : String) (limit : ℕ) (d : Dict) : Dict :=
  match d.get key with
  | .str s => d.set key (.str (truncateString s limit))
  | _ => d

def truncateLines (key : String) (d : Dict) : Dict :=
  match d.get key with
  | .arr lines => d.set key (.arr (lines.map (truncateIfStr contextLineMax)))
  | _ => d

def normalizeFrame : Json → Json
  | .obj frame =>
    let out := truncateField "filename" filenameMax frame
    let out := truncateField "function" functionMax out
    let out := truncateField "context_line" contextLineMax out
    .obj (truncateLines "post_context" (truncateLines "pre_context" out))
  | frame => frame

def capFrames (exception : Dict) : Dict :=
  match exception.get "stacktrace" with
  | .obj stacktrace =>
    match Dict.get stacktrace "frames" with
    | .arr frames => exception.set "stacktrace"
        (.obj (Dict.set stacktrace "frames" (.arr ((lastN maxFrames frames).map normalizeFrame))))
    | _ => exception
  | _ => exception

/-- `_normalize_exception` at depth `maxCauseDepth - left`. -/
def normalizeException : (left : ℕ) → Dict → Dict
  | 0, exception => (capFrames exception).pop "cause"
  | left + 1, exception =>
    match exception.get "cause" with
    | .obj cause => (capFrames exception).set "cause" (.obj (normalizeException left cause))
    | _ => (capFrames exception).pop "cause"

/-- A dict comprehension: a key that is truncated to an earlier one overwrites its value. -/
def normalizeTags (tags : Dict) : Dict :=
  tags.foldl (fun out kv =>
    let key := truncateString kv.1 tagKeyMax
    let value := truncateIfStr tagValueMax kv.2
    if (out.lookup key).isSome then out.map fun old => if old.1 = key then (key, value) else old
    else out ++ [(key, value)]) []

def capTags (env : Dict) : Dict :=
  match env.get "tags" with
  | .obj tags => env.set "tags" (.obj (normalizeTags tags))
  | _ => env

def capBreadcrumbs (env : Dict) : Dict :=
  match env.get "breadcrumbs" with
  | .arr breadcrumbs => env.set "breadcrumbs" (.arr (lastN maxBreadcrumbs breadcrumbs))
  | _ => env

def capException (env : Dict) : Dict :=
  match env.get "exception" with
  | .obj exception => env.set "exception" (.obj (normalizeException (maxCauseDepth - 1) exception))
  | _ => env

/-- What `normalize_envelope` makes of its copy. -/
def capEnvelope (env : Dict) : Dict :=
  capException (capBreadcrumbs (capTags (truncateField "message" messageMax env)))

def normalizeEnvelope (rt : Runtime) (envelope : Dict) : Except PyError Dict := do
  return capEnvelope (← deepcopyDict rt.room.deepcopy envelope)

/-- There is room for a copy of the envelope. -/
def Copyable (rt : Runtime) (envelope : Dict) : Prop :=
  2 * (Json.obj envelope).depth 1 ≤ rt.room.deepcopy

instance (rt : Runtime) (envelope : Dict) : Decidable (Copyable rt envelope) :=
  inferInstanceAs (Decidable (_ ≤ _))

theorem normalizeEnvelope_eq (rt : Runtime) (envelope : Dict) : normalizeEnvelope rt envelope =
    if Copyable rt envelope then .ok (capEnvelope envelope) else .error .recursionError := by
  rw [normalizeEnvelope, deepcopyDict_eq, bind_ite_ok]
  rfl

theorem normalizeEnvelope_ok_iff {rt : Runtime} {envelope env : Dict} :
    normalizeEnvelope rt envelope = .ok env ↔
      Copyable rt envelope ∧ env = capEnvelope envelope := by
  rw [normalizeEnvelope_eq]
  split_ifs with h
  · simp [h, eq_comm]
  · simp [h]

section Untouched

variable {k : PyStr} (d : Dict)

theorem truncateField_lookup {key : String} (h : k ≠ py key) (limit : ℕ) :
    (truncateField key limit d).lookup k = d.lookup k := by
  unfold truncateField
  split
  · exact Dict.lookup_set_ne d h _
  · rfl

theorem capTags_lookup (h : k ≠ py "tags") : (capTags d).lookup k = d.lookup k := by
  unfold capTags
  split
  · exact Dict.lookup_set_ne d h _
  · rfl

theorem capBreadcrumbs_lookup (h : k ≠ py "breadcrumbs") :
    (capBreadcrumbs d).lookup k = d.lookup k := by
  unfold capBreadcrumbs
  split
  · exact Dict.lookup_set_ne d h _
  · rfl

theorem capException_lookup (h : k ≠ py "exception") :
    (capException d).lookup k = d.lookup k := by
  unfold capException
  split
  · exact Dict.lookup_set_ne d h _
  · rfl

def normalizedFields : List PyStr := [py "message", py "tags", py "breadcrumbs", py "exception"]

/-- Normalisation rewrites four fields and leaves the others alone. -/
theorem capEnvelope_lookup (h : k ∉ normalizedFields) :
    (capEnvelope d).lookup k = d.lookup k := by
  simp only [normalizedFields, List.mem_cons, List.not_mem_nil, or_false, not_or] at h
  obtain ⟨hm, ht, hb, he⟩ := h
  rw [capEnvelope, capException_lookup _ he, capBreadcrumbs_lookup _ hb,
    capTags_lookup _ ht, truncateField_lookup _ hm]

theorem capEnvelope_get {key : String} (h : py key ∉ normalizedFields) :
    (capEnvelope d).get key = d.get key := by
  unfold Dict.get
  rw [capEnvelope_lookup d h]

end Untouched

/-! ## Fingerprint and title -/

def walkToRootCause : ℕ → Dict → Dict
  | 0, current => current
  | n + 1, current =>
    match current.get "cause" with
    | .obj cause => walkToRootCause n cause
    | _ => current

def asDict : Json → Option Dict
  | .obj d => some d
  | _ => none

/-- The frames of the root cause; iterating over something that is no iterable raises. -/
def rootFrames (root : Dict) : Except PyError (List Json) :=
  match root.get "stacktrace" with
  | .obj stacktrace => (Dict.getD stacktrace "frames" (.arr [])).iter
  | _ => .ok []

/-- The last in-app frames, or the last frames where none is in-app. -/
def selectedFrames (frames : List Json) : List Dict :=
  let dictFrames := frames.filterMap asDict
  let inAppFrames := dictFrames.filter fun frame => (frame.getD "in_app" (.bool true)).truthy
  let candidates := if inAppFrames.isEmpty then dictFrames else inAppFrames
  lastN fingerprintFrameLimit candidates

def exceptionSignature (platform : Json) (root : Dict) (frames : List Json) : Json :=
  .obj [(py "v", .int 1), (py "platform", platform), (py "type", root.get "type"),
    (py "frames", .arr ((selectedFrames frames).map fun f =>
      .arr [f.get "filename", f.get "function"]))]

section Fingerprint

variable (rt : Runtime)

def messageSignature (platform level message : Json) : Json :=
  let message := match message with
    | .str s => s
    | _ => []
  .obj [(py "v", .int 1), (py "platform", platform), (py "level", level),
    (py "message", .str (normalizeMessage rt message))]

def fingerprintSignature (normalized : Dict) : Except PyError Json :=
  match normalized.get "exception" with
  | .obj exception => do
    let root := walkToRootCause maxCauseDepth exception
    return exceptionSignature (normalized.get "platform") root (← rootFrames root)
  | _ => .ok (messageSignature rt (normalized.get "platform") (normalized.get "level")
      (normalized.get "message"))

def computeFingerprint (normalized : Dict) : Except PyError PyStr := do
  return rt.hexdigest (← utf8Encode (rt.dumps (← fingerprintSignature rt normalized)))

/-- `value.splitlines()[0]` for a non-empty string, the empty string for everything else. -/
def firstLine : Json → Except PyError PyStr
  | .str (c :: cs) =>
    match splitlines (c :: cs) with
    | line :: _ => .ok line
    | [] => .error .indexError
  | _ => .ok []

/-- `str(exc_type)` of an exception type that is set, `Error` otherwise. -/
def excType (type : Json) : PyStr :=
  match type with
  | .str (c :: cs) => c :: cs
  | _ => if type.truthy then rt.str type else py "Error"

def deriveTitle (normalized : Dict) : Except PyError PyStr :=
  match normalized.get "exception" with
  | .obj exception => do
    let excType := excType rt (Dict.get exception "type")
    let line ← firstLine (Dict.get exception "value")
    return truncateString (if line.isEmpty then excType else excType ++ py ": " ++ line) titleMax
  | _ => do return truncateString (← firstLine (normalized.get "message")) titleMax

end Fingerprint

/-! ## Regression decision -/

def Text.nonempty (t : Text) : Bool := !t.val.isEmpty

/-- Releases are ordered by the time they were first seen. -/
def decideRegression (resolvedInRelease eventRelease : Option Text)
    (eventReleaseCreatedAt resolvedReleaseCreatedAt : Option Timestamp) : Bool :=
  if !(resolvedInRelease.map Text.nonempty).getD false then true
  else if !(eventRelease.map Text.nonempty).getD false then true
  else
    match eventReleaseCreatedAt, resolvedReleaseCreatedAt with
    | some event, some resolved => event > resolved
    | _, _ => true

theorem decideRegression_iff (fix release : Option Text) (seen fixSeen : Option Timestamp) :
    decideRegression fix release seen fixSeen = false ↔
      ∃ f r t tf, fix = some f ∧ f.nonempty = true ∧ release = some r ∧ r.nonempty = true ∧
        seen = some t ∧ fixSeen = some tf ∧ t ≤ tf := by
  constructor
  · intro h
    unfold decideRegression at h
    split_ifs at h with hfix hrelease
    split at h
    · next t tf =>
        cases fix with
        | none => exact absurd rfl hfix
        | some f =>
            cases release with
            | none => exact absurd rfl hrelease
            | some r => exact ⟨f, r, t, tf, rfl, by simpa using hfix, rfl, by simpa using hrelease,
                rfl, rfl, by simpa using h⟩
    · cases h
  · rintro ⟨f, r, t, tf, rfl, hf, rfl, hr, rfl, rfl, hle⟩
    simp [decideRegression, hf, hr, hle]

/-! ## Preparation -/

/-- The arguments of one `process_event` call. `seenAt` is what `_coerce_timestamp` makes of the
`received_at` string, `maps` the source map directory as the worker finds it. -/
structure EventCall where
  envelope : Dict
  orgId : ℕ
  projectId : ℕ
  seenAt : Timestamp
  maps : Filesystem

/-- What the statements of `process_event` bind. -/
structure Prepared where
  projectId : ℕ
  seenAt : Timestamp
  fingerprint : PyStr
  title : PyStr
  eventId : Json
  level : Json
  environment : Json
  release : Json
  payload : Dict

/-- The document of an event whose envelope can be copied. -/
def symbolicated (rt : Runtime) (call : EventCall) : Dict :=
  symbolicateEnvelope rt call.maps (capEnvelope call.envelope) (uuidStr call.orgId)
    (uuidStr call.projectId)

/-- Symbolication rewrites the exception and nothing else. -/
theorem symbolicateEnvelope_lookup {rt : Runtime} {k : PyStr} (files : Filesystem) (envelope : Dict)
    (orgId projectId : PyStr) (he : k ≠ py "exception") :
    (symbolicateEnvelope rt files envelope orgId projectId).lookup k = envelope.lookup k := by
  unfold symbolicateEnvelope
  split
  · split_ifs
    · split
      · exact Dict.lookup_set_ne _ he _
      · rfl
    · rfl
  · rfl

theorem symbolicated_lookup {k : PyStr} (rt : Runtime) (call : EventCall)
    (h : k ∉ normalizedFields) : (symbolicated rt call).lookup k = call.envelope.lookup k := by
  have he : k ≠ py "exception" := fun heq => h (by simp [normalizedFields, heq])
  rw [← capEnvelope_lookup call.envelope h]
  exact symbolicateEnvelope_lookup _ _ _ _ he

theorem symbolicated_get {key : String} (rt : Runtime) (call : EventCall)
    (h : py key ∉ normalizedFields) : (symbolicated rt call).get key = call.envelope.get key := by
  unfold Dict.get
  rw [symbolicated_lookup rt call h]

def prepare (rt : Runtime) (call : EventCall) : Except PyError Prepared := do
  let normalized ← normalizeEnvelope rt call.envelope
  let normalized := symbolicateEnvelope rt call.maps normalized (uuidStr call.orgId)
    (uuidStr call.projectId)
  let fingerprint ← computeFingerprint rt normalized
  let title ← deriveTitle rt normalized
  return {
    projectId := call.projectId
    seenAt := call.seenAt
    fingerprint := fingerprint
    title := title
    eventId := ← normalized.item "event_id"
    level := ← normalized.item "level"
    environment := ← normalized.item "environment"
    release := normalized.get "release"
    payload := normalized }

/-- An envelope that is nested too deeply makes the event poison. -/
theorem prepare_error_of_deep {rt : Runtime} {call : EventCall} (h : ¬ Copyable rt call.envelope) :
    prepare rt call = .error .recursionError := by
  rw [prepare, normalizeEnvelope_eq, if_neg h]
  rfl

/-- What a prepared event was made of. -/
theorem prepare_ok_iff {rt : Runtime} {call : EventCall} {prep : Prepared} :
    prepare rt call = .ok prep ↔ ∃ fingerprint title eventId level environment,
      Copyable rt call.envelope ∧ computeFingerprint rt (symbolicated rt call) = .ok fingerprint ∧
      deriveTitle rt (symbolicated rt call) = .ok title ∧
      call.envelope.item "event_id" = .ok eventId ∧ call.envelope.item "level" = .ok level ∧
      call.envelope.item "environment" = .ok environment ∧
      prep = ⟨call.projectId, call.seenAt, fingerprint, title, eventId, level, environment,
        call.envelope.get "release", symbolicated rt call⟩ := by
  have hitem (key : String) (h : py key ∉ normalizedFields) :
      (symbolicated rt call).item key = call.envelope.item key := by
    unfold Dict.item
    rw [symbolicated_lookup rt call h]
  have hid := hitem "event_id" (by decide)
  have hlevel := hitem "level" (by decide)
  have henv := hitem "environment" (by decide)
  have hrelease : (symbolicated rt call).get "release" = call.envelope.get "release" :=
    symbolicated_get rt call (by decide)
  by_cases hcopy : Copyable rt call.envelope
  swap
  · simp [prepare_error_of_deep hcopy, hcopy]
  have hprepare : prepare rt call = do
      let fingerprint ← computeFingerprint rt (symbolicated rt call)
      let title ← deriveTitle rt (symbolicated rt call)
      let eventId ← (symbolicated rt call).item "event_id"
      let level ← (symbolicated rt call).item "level"
      let environment ← (symbolicated rt call).item "environment"
      return ⟨call.projectId, call.seenAt, fingerprint, title, eventId, level, environment,
        (symbolicated rt call).get "release", symbolicated rt call⟩ := by
    rw [prepare, normalizeEnvelope_eq, if_pos hcopy]
    rfl
  simp only [hprepare, hcopy, true_and, bind, Except.bind, pure, Except.pure, hid, hlevel, henv,
    hrelease]
  cases computeFingerprint rt (symbolicated rt call) with
  | error e => simp
  | ok fingerprint =>
      cases deriveTitle rt (symbolicated rt call) with
      | error e => simp
      | ok title =>
          cases call.envelope.item "event_id" with
          | error e => simp
          | ok eventId =>
              cases call.envelope.item "level" with
              | error e => simp
              | ok level =>
                  cases call.envelope.item "environment" with
                  | error e => simp
                  | ok environment => simp [eq_comm]

end Crashlens
