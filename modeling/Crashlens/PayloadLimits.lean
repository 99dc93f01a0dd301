import Crashlens.Acceptance
import Crashlens.Symbolication

/-!
# The limits of a stored payload

Normalisation brings every envelope within the limits of the protocol: truncated strings, the last
frames and breadcrumbs, a bounded chain of causes. Symbolication comes after it and writes what the
uploaded maps have: a path, a name and lines of any length.
-/

namespace Crashlens

/-! ## The limits -/

/-- Only strings have a length that is limited. -/
def Json.short (limit : ℕ) : Json → Bool
  | .str s => s.length ≤ limit
  | _ => true

def Json.shortLines : Json → Bool
  | .arr lines => lines.all fun line => line.short contextLineMax
  | _ => true

def frameWithin : Json → Bool
  | .obj frame =>
    (Dict.get frame "filename").short filenameMax &&
      (Dict.get frame "function").short functionMax &&
      (Dict.get frame "context_line").short contextLineMax &&
      (Dict.get frame "pre_context").shortLines && (Dict.get frame "post_context").shortLines
  | _ => true

/-- The frames of one exception, where they are a list. -/
def frameList (exception : Dict) : List Json :=
  match exception.get "stacktrace" with
  | .obj stacktrace =>
    match Dict.get stacktrace "frames" with
    | .arr frames => frames
    | _ => []
  | _ => []

def stackWithin (exception : Dict) : Bool :=
  (frameList exception).length ≤ maxFrames && (frameList exception).all frameWithin

/-- The chain has at most `n` exceptions, each of which meets the predicate. -/
def eachException (p : Dict → Bool) : ℕ → Dict → Bool
  | 0, _ => false
  | n + 1, exception =>
    p exception &&
      match exception.get "cause" with
      | .obj cause => eachException p n cause
      | _ => true

def tagsWithin : Json → Bool
  | .obj tags => tags.all fun kv => kv.1.length ≤ tagKeyMax && kv.2.short tagValueMax
  | _ => true

def breadcrumbsWithin : Json → Bool
  | .arr breadcrumbs => breadcrumbs.length ≤ maxBreadcrumbs
  | _ => true

def exceptionWithin : Json → Bool
  | .obj exception => eachException stackWithin maxCauseDepth exception
  | _ => true

structure WithinLimits (payload : Dict) : Prop where
  message : (payload.get "message").short messageMax = true
  tags : tagsWithin (payload.get "tags") = true
  breadcrumbs : breadcrumbsWithin (payload.get "breadcrumbs") = true
  exception : exceptionWithin (payload.get "exception") = true

instance (payload : Dict) : Decidable (WithinLimits payload) :=
  decidable_of_iff ((payload.get "message").short messageMax = true ∧
      tagsWithin (payload.get "tags") = true ∧
      breadcrumbsWithin (payload.get "breadcrumbs") = true ∧
      exceptionWithin (payload.get "exception") = true)
    ⟨fun ⟨hm, ht, hb, he⟩ => ⟨hm, ht, hb, he⟩, fun ⟨hm, ht, hb, he⟩ => ⟨hm, ht, hb, he⟩⟩

/-! ## Normalisation -/

section Normalize

variable {limit : ℕ}

theorem truncateString_length (value : PyStr) (h : truncationMarker.length ≤ limit) :
    (truncateString value limit).length ≤ limit := by
  unfold truncateString
  split_ifs with hle
  · exact hle
  · rw [List.length_append, List.length_take]
    omega

theorem truncateIfStr_short (v : Json) (h : truncationMarker.length ≤ limit) :
    (truncateIfStr limit v).short limit = true := by
  cases v with
  | str s => exact decide_eq_true (truncateString_length s h)
  | _ => rfl

theorem truncateField_get (d : Dict) (key : String) (limit : ℕ) :
    (truncateField key limit d).get key = truncateIfStr limit (d.get key) := by
  unfold truncateField
  split
  · next s hget => rw [Dict.get_set_self, hget, truncateIfStr]
  · next hno =>
      cases hget : d.get key with
      | str s => exact absurd hget (hno s)
      | _ => rfl

theorem truncateField_get_ne (d : Dict) {key k : String} (h : py k ≠ py key) (limit : ℕ) :
    (truncateField key limit d).get k = d.get k := by
  unfold Dict.get
  rw [truncateField_lookup d h]

theorem truncateLines_shortLines (d : Dict) (key : String) :
    ((truncateLines key d).get key).shortLines = true := by
  unfold truncateLines
  split
  · next lines _ =>
      rw [Dict.get_set_self, Json.shortLines, List.all_map, List.all_eq_true]
      exact fun line _ => truncateIfStr_short line (by decide)
  · next hno =>
      cases hget : d.get key with
      | arr lines => exact absurd hget (hno lines)
      | _ => rfl

theorem truncateLines_get_ne (d : Dict) {key k : String} (h : py k ≠ py key) :
    (truncateLines key d).get k = d.get k := by
  unfold truncateLines
  split
  · exact Dict.get_set_ne d h _
  · rfl

theorem frameWithin_normalizeFrame (frame : Json) : frameWithin (normalizeFrame frame) = true := by
  cases frame with
  | obj frame =>
      simp (disch := decide) only [normalizeFrame, frameWithin, truncateLines_get_ne,
        truncateLines_shortLines, truncateField_get_ne, truncateField_get, truncateIfStr_short,
        Bool.and_true]
  | _ => rfl

theorem lastN_length {α : Type} (n : ℕ) (xs : List α) : (lastN n xs).length ≤ n := by
  rw [lastN, List.length_drop]
  omega

theorem frameList_congr {d d' : Dict} (h : d'.get "stacktrace" = d.get "stacktrace") :
    frameList d' = frameList d := by
  unfold frameList
  rw [h]

theorem frameList_of_list {d stacktrace : Dict} {frames : List Json}
    (hst : d.get "stacktrace" = .obj stacktrace)
    (hframes : stacktrace.get "frames" = .arr frames) : frameList d = frames := by
  rw [frameList, hst]
  dsimp only
  rw [hframes]

theorem frameList_set (d stacktrace : Dict) (frames : List Json) :
    frameList (d.set "stacktrace" (.obj (stacktrace.set "frames" (.arr frames)))) = frames :=
  frameList_of_list (Dict.get_set_self ..) (Dict.get_set_self ..)

theorem frameList_of_no_list {d : Dict} (h : ∀ (stacktrace : Dict) (frames : List Json),
    d.get "stacktrace" = .obj stacktrace → stacktrace.get "frames" ≠ .arr frames) :
    frameList d = [] := by
  unfold frameList
  split
  · next stacktrace hst =>
      split
      · next frames hframes => exact absurd hframes (h stacktrace frames hst)
      · rfl
  · rfl

theorem capFrames_of_list {d st : Dict} {frames : List Json} (hst : d.get "stacktrace" = .obj st)
    (hframes : st.get "frames" = .arr frames) : capFrames d =
      d.set "stacktrace"
        (.obj (st.set "frames" (.arr ((lastN maxFrames frames).map normalizeFrame)))) := by
  rw [capFrames, hst]
  dsimp only
  rw [hframes]

theorem capFrames_of_no_list {d : Dict} (h : ∀ (stacktrace : Dict) (frames : List Json),
    d.get "stacktrace" = .obj stacktrace → stacktrace.get "frames" ≠ .arr frames) :
    capFrames d = d := by
  unfold capFrames
  split
  · next stacktrace hst =>
      split
      · next frames hframes => exact absurd hframes (h stacktrace frames hst)
      · rfl
  · rfl

theorem frameList_capFrames (d : Dict) :
    frameList (capFrames d) = (lastN maxFrames (frameList d)).map normalizeFrame := by
  by_cases hlist : ∃ (stacktrace : Dict) (frames : List Json),
      d.get "stacktrace" = .obj stacktrace ∧ stacktrace.get "frames" = .arr frames
  · obtain ⟨stacktrace, frames, hst, hframes⟩ := hlist
    rw [frameList_of_list hst hframes, capFrames_of_list hst hframes]
    exact frameList_set ..
  · have hno (stacktrace : Dict) (frames : List Json) (hst : d.get "stacktrace" = .obj stacktrace) :
        stacktrace.get "frames" ≠ .arr frames :=
      fun hframes => hlist ⟨stacktrace, frames, hst, hframes⟩
    rw [capFrames_of_no_list hno, frameList_of_no_list hno]
    rfl

theorem stackWithin_congr {d d' : Dict} (h : d'.get "stacktrace" = d.get "stacktrace") :
    stackWithin d' = stackWithin d := by
  unfold stackWithin
  rw [frameList_congr h]

theorem stackWithin_capFrames (d : Dict) : stackWithin (capFrames d) = true := by
  rw [stackWithin, frameList_capFrames, List.length_map, List.all_map, Bool.and_eq_true,
    decide_eq_true_eq, List.all_eq_true]
  exact ⟨lastN_length .., fun frame _ => frameWithin_normalizeFrame frame⟩

theorem eachException_cause {p : Dict → Bool} {d cause : Dict} (n : ℕ)
    (h : d.get "cause" = .obj cause) :
    eachException p (n + 1) d = (p d && eachException p n cause) := by
  rw [eachException, h]

theorem eachException_root {p : Dict → Bool} {d : Dict} (n : ℕ)
    (h : ∀ cause, d.get "cause" ≠ .obj cause) : eachException p (n + 1) d = p d := by
  rw [eachException]
  cases hget : d.get "cause" with
  | obj cause => exact absurd hget (h cause)
  | _ => exact Bool.and_true _

/-- A chain of any length is cut off, and each exception of what is left is within its limits. -/
theorem eachException_normalizeException (left : ℕ) (d : Dict) :
    eachException stackWithin (left + 1) (normalizeException left d) = true := by
  have hst : py "stacktrace" ≠ py "cause" := by decide
  have hlast (n : ℕ) (d : Dict) :
      eachException stackWithin (n + 1) ((capFrames d).pop "cause") = true := by
    rw [eachException_root n (get_pop_cause_ne _)]
    exact (stackWithin_congr (Dict.get_pop_ne _ hst)).trans (stackWithin_capFrames d)
  induction left generalizing d with
  | zero => exact hlast 0 d
  | succ left ih =>
      rw [normalizeException]
      split
      · next cause _ =>
          rw [eachException_cause _ (Dict.get_set_self ..), ih cause, Bool.and_true]
          exact (stackWithin_congr (Dict.get_set_ne _ hst _)).trans (stackWithin_capFrames d)
      · exact hlast (left + 1) d

theorem tagsWithin_normalizeTags (tags : Dict) : tagsWithin (.obj (normalizeTags tags)) = true := by
  unfold normalizeTags
  refine List.foldlRecOn (motive := fun out => tagsWithin (.obj out) = true) tags _ rfl
    fun out h kv _ => ?_
  have hkey : (truncateString kv.1 tagKeyMax).length ≤ tagKeyMax :=
    truncateString_length kv.1 (by decide)
  have hvalue : (truncateIfStr tagValueMax kv.2).short tagValueMax = true :=
    truncateIfStr_short kv.2 (by decide)
  rw [tagsWithin, List.all_eq_true] at h ⊢
  dsimp only
  split_ifs
  · intro tag htag
    obtain ⟨old, hold, rfl⟩ := List.mem_map.mp htag
    split_ifs
    · simp [hkey, hvalue]
    · exact h old hold
  · intro tag htag
    rcases List.mem_append.mp htag with hold | hnew
    · exact h tag hold
    · rw [List.mem_singleton.mp hnew]
      simp [hkey, hvalue]

theorem tagsWithin_capTags (env : Dict) : tagsWithin ((capTags env).get "tags") = true := by
  unfold capTags
  split
  · rw [Dict.get_set_self]
    exact tagsWithin_normalizeTags _
  · next hno =>
      cases htags : env.get "tags" with
      | obj tags => exact absurd htags (hno tags)
      | _ => rfl

theorem breadcrumbsWithin_capBreadcrumbs (env : Dict) :
    breadcrumbsWithin ((capBreadcrumbs env).get "breadcrumbs") = true := by
  unfold capBreadcrumbs
  split
  · rw [Dict.get_set_self]
    exact decide_eq_true (lastN_length ..)
  · next hno =>
      cases hbreadcrumbs : env.get "breadcrumbs" with
      | arr breadcrumbs => exact absurd hbreadcrumbs (hno breadcrumbs)
      | _ => rfl

/-- Normalisation brings every envelope within the limits. -/
theorem withinLimits_capEnvelope (envelope : Dict) :
    WithinLimits (capEnvelope envelope) where
  message := by
    have hget : (capEnvelope envelope).get "message" =
        truncateIfStr messageMax (envelope.get "message") := by
      rw [← truncateField_get]
      unfold capEnvelope Dict.get
      rw [capException_lookup _ (by decide), capBreadcrumbs_lookup _ (by decide),
        capTags_lookup _ (by decide)]
    rw [hget]
    exact truncateIfStr_short _ (by decide)
  tags := by
    have hget : (capEnvelope envelope).get "tags" =
        (capTags (truncateField "message" messageMax envelope)).get "tags" := by
      unfold capEnvelope Dict.get
      rw [capException_lookup _ (by decide), capBreadcrumbs_lookup _ (by decide)]
    rw [hget]
    exact tagsWithin_capTags _
  breadcrumbs := by
    have hget : (capEnvelope envelope).get "breadcrumbs" =
        (capBreadcrumbs (capTags (truncateField "message" messageMax envelope))).get
          "breadcrumbs" := by
      unfold capEnvelope Dict.get
      rw [capException_lookup _ (by decide)]
    rw [hget]
    exact breadcrumbsWithin_capBreadcrumbs _
  exception := by
    rw [capEnvelope_exception]
    cases envelope.get "exception" with
    | obj exception => exact eachException_normalizeException (maxCauseDepth - 1) exception
    | _ => rfl

end Normalize

/-! ## Symbolication -/

section Symbolication

/-- What a map has at a segment is within the limits of a frame. -/
def SourceMap.fitsAt (m : SourceMap) (seg : Segment) (source : PyStr) : Bool :=
  source.length ≤ filenameMax && ((m.nameOf seg).all fun name => name.length ≤ functionMax) &&
    (m.sourceContext seg.srcIndex seg.origLine).all fun (line, pre, post) =>
      line.length ≤ contextLineMax && pre.all (fun l => l.length ≤ contextLineMax) &&
        post.all fun l => l.length ≤ contextLineMax

variable (rt : Runtime) (call : EventCall)

/-- The map of a frame, and what it has at the position of the frame. -/
def frameSegment (dir : Path) (frame : Dict) : Option (SourceMap × Segment × PyStr) := do
  let basename ← basenameFromFrameFilename (frame.get "filename")
  let m ← (firstMap rt call.maps dir (mapCandidates basename)).toOption.join
  let (seg, source) ← m.segmentAt frame
  return (m, seg, source)

def frameFits (dir : Path) : Json → Bool
  | .obj frame => (frameSegment rt call dir frame).all fun (m, seg, source) => m.fitsAt seg source
  | _ => true

def stackFits (release : PyStr) (exception : Dict) : Bool :=
  match releaseMapsDir (uuidStr call.orgId) (uuidStr call.projectId) release with
  | .ok dir => (frameList exception).all (frameFits rt call dir)
  | .error _ => true

/-- Where the event is symbolicated, its maps have no string beyond the limits at the positions of
its frames. -/
def mapsFit : Bool :=
  match symbolicates rt call, mapRelease call, call.envelope.get "exception" with
  | true, some release, .obj exception =>
    eachException (stackFits rt call release) maxCauseDepth
      (normalizeException (maxCauseDepth - 1) exception)
  | _, _, _ => true

variable {rt call}

theorem shortLines_map_str (lines : List PyStr) :
    (Json.arr (lines.map .str)).shortLines = lines.all fun l => l.length ≤ contextLineMax := by
  rw [Json.shortLines, List.all_map]
  rfl

/-- A frame within its limits stays within them exactly when what the map has is. -/
theorem frameWithin_rewrite {frame : Dict} (h : frameWithin (.obj frame) = true) (m : SourceMap)
    (seg : Segment) (source : PyStr) :
    frameWithin (.obj (frame.rewrite m seg source)) = m.fitsAt seg source := by
  simp only [frameWithin, Bool.and_eq_true] at h
  obtain ⟨⟨⟨⟨hfile, hfun⟩, hline⟩, hpre⟩, hpost⟩ := h
  have hpath : (if source = [] then frame.get "filename" else .str source).short filenameMax =
      decide (source.length ≤ filenameMax) := by
    split_ifs with hempty
    · rw [hfile, hempty]
      rfl
    · rfl
  have hname : (((m.nameOf seg).map Json.str).getD (frame.get "function")).short functionMax =
      (m.nameOf seg).all fun name => decide (name.length ≤ functionMax) := by
    cases m.nameOf seg with
    | none => exact hfun
    | some name => rfl
  rw [frameWithin, rewrite_filename, rewrite_function, hpath, hname, SourceMap.fitsAt]
  obtain ⟨line, pre, post, hcontext, hline', hpre', hpost'⟩ | ⟨hcontext, hkeep⟩ :=
    rewrite_context m frame seg source
  · rw [hline', hpre', hpost', hcontext, shortLines_map_str, shortLines_map_str]
    simp only [Json.short, Option.all_some, Bool.and_assoc]
  · rw [hkeep _ (by simp), hkeep _ (by simp), hkeep _ (by simp), hline, hpre, hpost, hcontext]
    simp only [Option.all_none, Bool.and_true]

/-- A frame is rewritten where its map has a segment at its position. -/
theorem symbolicateStackFrame_cases {dir : Path} {frame : Dict} {out : Json}
    (hout : symbolicateStackFrame rt call.maps dir (.obj frame) = .ok out) :
    (∃ m seg source, frameSegment rt call dir frame = some (m, seg, source) ∧
      m.segmentAt frame = some (seg, source) ∧ out = .obj (frame.rewrite m seg source)) ∨
    frameSegment rt call dir frame = none ∧ out = .obj frame := by
  rw [symbolicateStackFrame] at hout
  unfold frameSegment
  cases hbase : basenameFromFrameFilename (frame.get "filename") with
  | none =>
      rw [hbase] at hout
      cases hout
      exact .inr ⟨rfl, rfl⟩
  | some basename =>
      rw [hbase] at hout
      dsimp only at hout
      cases hfirst : firstMap rt call.maps dir (mapCandidates basename) with
      | error e =>
          rw [hfirst] at hout
          cases hout
      | ok found =>
          rw [hfirst] at hout
          cases found with
          | none =>
              cases hout
              exact .inr ⟨by simp [hfirst, Except.toOption], rfl⟩
          | some m =>
              cases hout
              cases hsegment : m.segmentAt frame with
              | none =>
                  refine .inr ⟨by simp [hfirst, hsegment, Except.toOption], ?_⟩
                  rw [symbolicateFrame_none hsegment]
              | some found =>
                  obtain ⟨seg, source⟩ := found
                  refine .inl ⟨m, seg, source, by simp [hfirst, hsegment, Except.toOption],
                    hsegment, ?_⟩
                  rw [symbolicateFrame_some hsegment]

theorem frameWithin_symbolicated {dir : Path} {frame out : Json} (h : frameWithin frame = true)
    (hout : symbolicateStackFrame rt call.maps dir frame = .ok out) :
    frameWithin out = frameFits rt call dir frame := by
  cases frame with
  | obj frame =>
      rw [frameFits]
      obtain ⟨m, seg, source, hfound, -, rfl⟩ | ⟨hnone, rfl⟩ := symbolicateStackFrame_cases hout
      · rw [frameWithin_rewrite h, hfound]
        rfl
      · rw [h, hnone]
        rfl
  | _ =>
      cases hout
      exact h

theorem stackWithin_symbolicated {release : PyStr} {d out : Dict} (h : stackWithin d = true)
    (hout : symbolicateStacktrace rt call.maps (uuidStr call.orgId) (uuidStr call.projectId)
      release d = .ok out) : stackWithin out = stackFits rt call release d := by
  rw [stackWithin, Bool.and_eq_true, List.all_eq_true] at h
  obtain ⟨hlength, hwithin⟩ := h
  obtain ⟨st, frames, dir, frames', hst, hframes, hdir, hmap, rfl⟩ | ⟨hno, rfl⟩ :=
    symbolicateStacktrace_cases hout
  · have hlist := frameList_of_list hst hframes
    rw [hlist] at hlength hwithin
    rw [stackWithin, frameList_set, stackFits, hdir, hlist]
    have hall := mapM_eq_ok.mp hmap
    rw [← hall.length_eq, hlength, Bool.true_and]
    dsimp only
    clear hout hlength hlist hframes hmap
    induction hall with
    | nil => rfl
    | cons hframe _ ih =>
        rw [List.forall_mem_cons] at hwithin
        rw [List.all_cons, List.all_cons, frameWithin_symbolicated hwithin.1 hframe,
          ih hwithin.2]
  · rw [stackWithin, stackFits, frameList_of_no_list hno]
    split
    · rfl
    · rfl

/-- A chain within the limits stays within them exactly when the maps fit each of its exceptions. -/
theorem eachException_symbolicated {release : PyStr} {n : ℕ} {d out : Dict}
    (h : eachException stackWithin n d = true)
    (hout : symbolicateException rt call.maps (uuidStr call.orgId) (uuidStr call.projectId)
      release d = .ok out) :
    eachException stackWithin n out = eachException (stackFits rt call release) n d := by
  have hst : py "stacktrace" ≠ py "cause" := by decide
  have hcause : py "cause" ≠ py "stacktrace" := by decide
  induction n generalizing d out with
  | zero => rfl
  | succ n ih =>
      obtain ⟨top, htop, ⟨cause, cause', hget, rfl, hrec⟩ | ⟨hno, rfl⟩⟩ :=
        symbolicateException_cases hout
      · rw [eachException_cause n hget, Bool.and_eq_true] at h
        rw [eachException_cause n (Dict.get_set_self ..), eachException_cause n hget, ih h.2 hrec,
          stackWithin_congr (Dict.get_set_ne _ hst _), stackWithin_symbolicated h.1 htop]
      · have hout' : out.get "cause" = d.get "cause" := symbolicateStacktrace_get hcause htop
        rw [eachException_root n hno] at h
        rw [eachException_root n (hout' ▸ hno), eachException_root n hno,
          stackWithin_symbolicated h htop]

theorem exceptionWithin_symbolicated (rt : Runtime) (call : EventCall) :
    exceptionWithin ((symbolicated rt call).get "exception") = mapsFit rt call := by
  by_cases hexc : ∃ exception, call.envelope.get "exception" = .obj exception
  · obtain ⟨exception, hexc⟩ := hexc
    obtain ⟨hyes, hno⟩ := symbolicated_exception rt hexc
    have hnorm := eachException_normalizeException (maxCauseDepth - 1) exception
    rw [mapsFit, hexc]
    cases hs : symbolicates rt call with
    | false =>
        rw [hno hs]
        exact hnorm
    | true =>
        obtain ⟨release, out, hrelease, hout, hget⟩ := hyes hs
        rw [hget, hrelease]
        exact eachException_symbolicated hnorm hout
  · have hno (exception : Dict) : call.envelope.get "exception" ≠ .obj exception :=
      fun h => hexc ⟨exception, h⟩
    have hfit : mapsFit rt call = true := by
      unfold mapsFit
      split
      · next hget => exact absurd hget (hno _)
      · rfl
    have hnorm : ∀ exception,
        (capEnvelope call.envelope).get "exception" ≠ .obj exception := by
      rw [capEnvelope_exception]
      cases hget : call.envelope.get "exception" with
      | obj exception => exact absurd hget (hno exception)
      | _ => exact fun _ => Json.noConfusion
    obtain hsame | ⟨_, exception, _, hget, -, -⟩ := symbolicateEnvelope_exception rt call.maps
      (capEnvelope call.envelope) (uuidStr call.orgId) (uuidStr call.projectId)
    · rw [hfit, symbolicated, hsame]
      cases hget : (capEnvelope call.envelope).get "exception" with
      | obj exception => exact absurd hget (hnorm exception)
      | _ => rfl
    · exact absurd hget (hnorm exception)

/-- The payload is within the limits exactly when the maps fit. -/
theorem withinLimits_symbolicated (rt : Runtime) (call : EventCall) :
    WithinLimits (symbolicated rt call) ↔ mapsFit rt call = true := by
  have hkeep (key : String) (he : py key ≠ py "exception") :
      (symbolicated rt call).get key = (capEnvelope call.envelope).get key := by
    unfold Dict.get
    rw [symbolicated, symbolicateEnvelope_lookup _ _ _ _ he]
  have hmessage := hkeep "message" (by decide)
  have htags := hkeep "tags" (by decide)
  have hbreadcrumbs := hkeep "breadcrumbs" (by decide)
  have hnorm := withinLimits_capEnvelope call.envelope
  rw [← exceptionWithin_symbolicated]
  exact ⟨fun h => h.exception, fun h => ⟨hmessage ▸ hnorm.message, htags ▸ hnorm.tags,
    hbreadcrumbs ▸ hnorm.breadcrumbs, h⟩⟩

end Symbolication

/-! ## What is stored -/

section Stored

/-- The row of an event that is stored carries the symbolicated envelope. -/
theorem stored_payload {pg : Postgres} {rt : Runtime} {call : EventCall} {now : Timestamp}
    {db db' : Db} {r : EventResult}
    (h : (store pg).serial (processEvent pg rt call) now db = (.ok (.stored r), db')) :
    ∃ e, db'.events = db.events ++ [e] ∧ e.payload = symbolicated rt call := by
  obtain ⟨b, hb, -, -, -, hserial⟩ | ⟨hnot, -⟩ := serial_processEvent pg rt call now db
  · cases hserial.symm.trans h
    exact ⟨b.event now db, store_events b now db, bound_payload hb⟩
  · exact absurd (congrArg Prod.fst h) (hnot r)

/-- Whatever is stored, its payload is within the limits exactly when the maps have no string beyond
them at the positions of its frames. -/
theorem stored_within_limits_iff (pg : Postgres) (rt : Runtime) (call : EventCall) (now : Timestamp)
    (db : Db) {db' : Db} {r : EventResult}
    (h : (store pg).serial (processEvent pg rt call) now db = (.ok (.stored r), db')) :
    ∃ e, db'.events = db.events ++ [e] ∧ (WithinLimits e.payload ↔ mapsFit rt call = true) := by
  obtain ⟨e, hevents, hpayload⟩ := stored_payload h
  refine ⟨e, hevents, ?_⟩
  rw [hpayload]
  exact withinLimits_symbolicated rt call

/-! An event with one frame, whose map has a path of `n + 3` characters for it. -/

def longPath (n : ℕ) : PyStr := List.replicate n (CodePoint.ofNat 0x61) ++ py ".ts"

def longMap (n : ℕ) : Json :=
  .obj [(py "mappings", .str (py "AAAA")), (py "names", .arr []),
    (py "sources", .arr [.str (longPath n)]), (py "version", .int 3)]

def longMapFile (n : ℕ) : List UInt8 :=
  ascii (py "\x7b\"mappings\":\"AAAA\",\"names\":[],\"sources\":[\"" ++ longPath n ++
    py "\"],\"version\":3\x7d")

def longSignature (n : ℕ) : List UInt8 :=
  ascii (py "\x7b\"frames\":[[\"" ++ longPath n ++
    py "\",\"e\"]],\"platform\":\"javascript\",\"type\":\"Error\",\"v\":1\x7d")

/-- Python's runtime on two of these maps and the signatures of their events. -/
def longRuntime : Runtime :=
  { sampleRuntime with
    jsonLoads := fun data =>
      orValueError (([1, 254].find? fun n => longMapFile n = data).map longMap)
    sha256 := fun data =>
      if longSignature 1 = data then
        0xfa99653d0528c446e6d75f5ecaa0f089b56e3d0716854c7b36c3813cfc279afe
      else if longSignature 254 = data then
        0xbb5b0827d7ccadfb432c2b059a61f57ca0428292e85234879b36cb81856c47a3
      else 0 }

def longException : Dict :=
  [(py "type", .str (py "Error")), (py "value", .str (py "boom")),
    (py "stacktrace", .obj [(py "frames", .arr [.obj [
      (py "filename", .str (py "https://cdn.example.com/app.js")), (py "function", .str (py "e")),
      (py "lineno", .int 1), (py "colno", .int 1)]])])]

def longEnvelope : Dict :=
  ((sampleCall (some "1") sampleEventId 0).envelope.set "platform" (.str (py "javascript"))).set
    "exception" (.obj longException)

def longCall (n : ℕ) : EventCall :=
  { sampleCall (some "1") sampleEventId 0 with
    envelope := longEnvelope
    maps := fun path => if path = [uuidStr 1, uuidStr 1, py "MQ", py "app.js.map"] then
      some (longMapFile n) else none }

theorem longCall_accepted (n : ℕ) :
    validateEnvelope longRuntime (longCall n).envelope = .ok () := by
  change validateEnvelope longRuntime longEnvelope = .ok ()
  decide +kernel

theorem longCall_stored {n : ℕ} (h : n ∈ [1, 254]) :
    ∃ r db', (store samplePostgres).serial (processEvent samplePostgres longRuntime (longCall n)) 0
      sampleDb = (.ok (.stored r), db') := by
  have hpayload : ∀ n ∈ [1, 254], (Json.obj (symbolicated longRuntime (longCall n))).storable =
      true := by decide +kernel
  have hid : uuidParam samplePostgres (longEnvelope.get "event_id") = some 1 := by decide +kernel
  have hrelease : nullableTextParam (longEnvelope.get "release") =
      some (some ⟨py "1", by decide⟩) := by decide +kernel
  have hfits : (longCall n).FitsColumns samplePostgres := ⟨⟨1, hid⟩, ⟨_, hrelease, by decide⟩⟩
  have hcopy : Copyable longRuntime longEnvelope := by decide +kernel
  have hframes : RootFramesOk (longCall n).envelope := by
    intro exception hexc
    have hself : longEnvelope.get "exception" = .obj longException := Dict.get_set_self _ _ _
    cases hself.symm.trans hexc
    have hroot : ∀ cause, longException.get "cause" ≠ .obj cause := fun _ => Json.noConfusion
    rw [walkToRootCause_root _ hroot]
    exact framesOk_of_list rfl rfl
  obtain ⟨b, hb, -⟩ := bound_of_accepted (longCall_accepted n) hcopy hframes hfits (hpayload n h)
  have hday : utcDay b.seenAt ∈ sampleDb.partitions := by
    rw [(bound_call hb).2]
    change utcDay (longCall 0).seenAt ∈ _
    decide
  have hproject : b.projectId ∈ sampleDb.projects := by
    rw [(bound_call hb).1]
    change (longCall 0).projectId ∈ _
    decide
  exact ⟨_, _, serial_stored hb (fun _ => hproject) hday rfl⟩

/-- A path of four characters fits. -/
theorem short_path_within_limits : ∃ r db' e, (store samplePostgres).serial
    (processEvent samplePostgres longRuntime (longCall 1)) 0 sampleDb = (.ok (.stored r), db') ∧
      db'.events = sampleDb.events ++ [e] ∧ WithinLimits e.payload := by
  obtain ⟨r, db', hstored⟩ := longCall_stored (n := 1) (by simp)
  obtain ⟨e, hevents, hiff⟩ := stored_within_limits_iff _ _ _ _ _ hstored
  exact ⟨r, db', e, hstored, hevents, hiff.mpr (by decide +kernel)⟩

/-- A path of 257 characters is stored as it stands in the map. -/
theorem long_path_stored : validateEnvelope longRuntime (longCall 254).envelope = .ok () ∧
    ∃ r db' e, (store samplePostgres).serial
      (processEvent samplePostgres longRuntime (longCall 254)) 0 sampleDb = (.ok (.stored r), db') ∧
        db'.events = sampleDb.events ++ [e] ∧ ¬ WithinLimits e.payload := by
  obtain ⟨r, db', hstored⟩ := longCall_stored (n := 254) (by simp)
  obtain ⟨e, hevents, hpayload⟩ := stored_payload hstored
  refine ⟨longCall_accepted 254, r, db', e, hstored, hevents, ?_⟩
  rw [hpayload]
  decide +kernel

end Stored

end Crashlens
