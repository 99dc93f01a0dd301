import Crashlens.JsonText
import Crashlens.Symbolication
import Crashlens.Transactions

/-!
# Grouping across builds

Two builds of the same source give minified frames of different names and positions, and maps that
take them back to the same original frames. The fingerprint hashes the file name and the function of
the frames of the root cause after symbolication.

Where a map has no name for a position, symbolication keeps the minified `function`; and an error
anywhere in the chain of causes keeps the whole envelope as it came.
-/

namespace Crashlens

/-! ## What a frame resolves to -/

/-- An original position. Lines and columns count from one; an empty name is none. -/
structure Original where
  path : PyStr
  line : ℤ
  col : ℤ
  name : Option PyStr
deriving DecidableEq

def SourceMap.original (m : SourceMap) (frame : Dict) : Option Original :=
  (m.segmentAt frame).map fun (seg, source) =>
    ⟨source, seg.origLine + 1, seg.origCol + 1, m.nameOf seg⟩

/-- What the fingerprint reads of a frame. -/
structure View where
  filename : Json
  function : Json
  inApp : Bool

def viewOf (frame : Dict) : View :=
  ⟨frame.get "filename", frame.get "function", (frame.getD "in_app" (.bool true)).truthy⟩

/-- The frame put back to its original position. -/
def Original.view (o : Original) (frame : Dict) : View where
  filename := .str o.path
  function := (o.name.map Json.str).getD (frame.get "function")
  inApp := (viewOf frame).inApp && !containsSub (py "node_modules") o.path

theorem viewOf_symbolicateFrame {m : SourceMap} {frame : Dict} {o : Original}
    (h : m.original frame = some o) (hpath : o.path ≠ []) :
    viewOf (symbolicateFrame frame m) = o.view frame := by
  obtain ⟨⟨seg, source⟩, hsegment, rfl⟩ := Option.map_eq_some_iff.mp h
  have hsource : source ≠ [] := hpath
  rw [symbolicateFrame_some hsegment, viewOf, rewrite_filename, rewrite_function,
    rewrite_inApp _ _ _ _ hsource, if_neg hsource, Original.view, viewOf]
  congr 1
  by_cases hvendor : containsSub (py "node_modules") source = true
  · simp [hvendor, Json.truthy]
  · simp [hvendor]

/-! ## The frames of an event -/

section Event

variable (rt : Runtime) (call : EventCall)

/-- The root cause as normalisation leaves it. -/
def rootCause : Dict :=
  match call.envelope.get "exception" with
  | .obj exception =>
    walkToRootCause maxCauseDepth (normalizeException (maxCauseDepth - 1) exception)
  | _ => []

/-- Where a frame comes from according to the map of its file. -/
def resolve (frame : Dict) : Option Original := do
  let release ← mapRelease call
  let dir ← (releaseMapsDir (uuidStr call.orgId) (uuidStr call.projectId) release).toOption
  let basename ← basenameFromFrameFilename (frame.get "filename")
  let m ← (firstMap rt call.maps dir (mapCandidates basename)).toOption.join
  m.original frame

/-- The frames of the root cause, those of them that are objects. -/
def crashFrames : List Dict :=
  match rootFrames (rootCause call) with
  | .ok frames => frames.filterMap asDict
  | .error _ => []

/-- The frames that resolve, with what they resolve to. -/
def traces : List (Dict × Original) :=
  (crashFrames call).filterMap fun frame => (resolve rt call frame).map fun o => (frame, o)

/-- The last of the frames the application owns, or the last frames where it owns none. -/
def selectLast {α : Type} (inApp : α → Bool) (frames : List α) : List α :=
  let inAppFrames := frames.filter inApp
  lastN fingerprintFrameLimit (if inAppFrames.isEmpty then frames else inAppFrames)

def hashedTraces : List (Dict × Original) :=
  selectLast (fun t => (t.2.view t.1).inApp) (traces rt call)

/-- What the fingerprint hashes of the frames. -/
def hashedViews : List View :=
  if symbolicates rt call then (hashedTraces rt call).map fun t => t.2.view t.1
  else selectLast View.inApp ((crashFrames call).map viewOf)

end Event

theorem selectedFrames_eq (frames : List Json) :
    selectedFrames frames =
      selectLast (fun f => (viewOf f).inApp) (frames.filterMap asDict) := rfl

theorem selectLast_map {α β : Type} (f : α → β) (inApp : β → Bool) (xs : List α) :
    selectLast inApp (xs.map f) = (selectLast (fun x => inApp (f x)) xs).map f := by
  unfold selectLast lastN
  simp only [List.filter_map, Function.comp_def, List.isEmpty_map]
  split_ifs
  · simp
  · simp

theorem selectLast_forall₂ {α β : Type} {R : α → β → Prop} {p : α → Bool} {q : β → Bool}
    (hpq : ∀ a b, R a b → p a = q b) {xs : List α} {ys : List β} (h : List.Forall₂ R xs ys) :
    List.Forall₂ R (selectLast p xs) (selectLast q ys) := by
  have hfilter : List.Forall₂ R (xs.filter p) (ys.filter q) := by
    induction h with
    | nil => exact .nil
    | @cons a b xs ys hab _ ih =>
        rw [List.filter_cons, List.filter_cons, hpq a b hab]
        split_ifs
        · exact .cons hab ih
        · exact ih
  have hlast {xs : List α} {ys : List β} (h : List.Forall₂ R xs ys) :
      List.Forall₂ R (lastN fingerprintFrameLimit xs) (lastN fingerprintFrameLimit ys) := by
    unfold lastN
    rw [h.length_eq]
    exact List.forall₂_drop _ h
  have hempty : (xs.filter p).isEmpty = (ys.filter q).isEmpty := by
    rw [Bool.eq_iff_iff, List.isEmpty_iff_length_eq_zero, List.isEmpty_iff_length_eq_zero,
      hfilter.length_eq]
  unfold selectLast
  dsimp only
  rw [hempty]
  split_ifs
  · exact hlast h
  · exact hlast hfilter

/-! ## Symbolication of the root cause -/

section Symbolication

variable {rt : Runtime} {call : EventCall}

theorem resolve_symbolicates {release : PyStr} {dir : Path} {frame : Dict} {o : Original}
    (hrelease : mapRelease call = some release)
    (hdir : releaseMapsDir (uuidStr call.orgId) (uuidStr call.projectId) release = .ok dir)
    (h : resolve rt call frame = some o) (hpath : o.path ≠ []) {out : Json}
    (hout : symbolicateStackFrame rt call.maps dir (.obj frame) = .ok out) :
    ∃ f, out = .obj f ∧ viewOf f = o.view frame := by
  unfold resolve at h
  simp only [hrelease, hdir, Option.bind_eq_bind, Option.bind_some, Except.toOption,
    Option.bind_eq_some_iff] at h
  obtain ⟨basename, hbase, m, hm, horiginal⟩ := h
  rw [symbolicateStackFrame, hbase] at hout
  dsimp only at hout
  cases hfirst : firstMap rt call.maps dir (mapCandidates basename) with
  | error e =>
      rw [hfirst] at hm
      cases hm
  | ok found =>
      rw [hfirst] at hm hout
      obtain rfl : found = some m := hm
      cases hout
      exact ⟨_, rfl, viewOf_symbolicateFrame horiginal hpath⟩

/-- An event of the browser whose root cause consists of frames that all resolve. -/
structure Resolves (rt : Runtime) (call : EventCall) : Prop where
  javascript : call.envelope.get "platform" = .str (py "javascript")
  exception : ∃ exception, call.envelope.get "exception" = .obj exception
  frames : rootFrames (rootCause call) = .ok ((crashFrames call).map .obj)
  resolves : ∀ f ∈ crashFrames call, ∃ o, resolve rt call f = some o ∧ o.path ≠ []

/-- The views of the frames after symbolication. -/
theorem views_symbolicated {release : PyStr} {dir : Path}
    (hrelease : mapRelease call = some release)
    (hdir : releaseMapsDir (uuidStr call.orgId) (uuidStr call.projectId) release = .ok dir)
    {frames : List Dict} (h : ∀ f ∈ frames, ∃ o, resolve rt call f = some o ∧ o.path ≠ [])
    {out : List Json}
    (hout : (frames.map Json.obj).mapM (symbolicateStackFrame rt call.maps dir) = .ok out) :
    (out.filterMap asDict).map viewOf =
      (frames.filterMap fun f => (resolve rt call f).map fun o => (f, o)).map fun t =>
        t.2.view t.1 := by
  rw [mapM_eq_ok] at hout
  induction frames generalizing out with
  | nil =>
      cases hout
      rfl
  | cons f frames ih =>
      obtain ⟨x, xs, hx, hxs, rfl⟩ := List.forall₂_cons_left_iff.mp hout
      obtain ⟨o, ho, hpath⟩ := h f (List.mem_cons_self ..)
      obtain ⟨f', rfl, hview⟩ := resolve_symbolicates hrelease hdir ho hpath hx
      have hrest := ih (fun g hg => h g (List.mem_cons_of_mem f hg)) hxs
      rw [List.filterMap_cons_some (rfl : asDict (.obj f') = some f'),
        List.filterMap_cons_some (by rw [ho]; rfl), List.map_cons, List.map_cons, hview, hrest]

/-- A list of frames, or no frame at all. -/
theorem frames_list {d : Dict} {frames : List Dict}
    (hno : ∀ (stacktrace : Dict) (frames : List Json), d.get "stacktrace" = .obj stacktrace →
      stacktrace.get "frames" ≠ .arr frames)
    (h : rootFrames d = .ok (frames.map .obj)) : frames = [] := by
  unfold rootFrames at h
  split at h
  · next stacktrace hst =>
      have hnolist := fun frames => hno stacktrace frames hst
      unfold Dict.get at hnolist
      unfold Dict.getD at h
      cases hlookup : stacktrace.lookup (py "frames") with
      | none =>
          rw [hlookup] at h
          exact List.map_eq_nil_iff.mp (Except.ok.inj h).symm
      | some v =>
          rw [hlookup] at h hnolist
          cases frames with
          | nil => rfl
          | cons f frames =>
              cases v with
              | arr items => exact absurd rfl (hnolist items)
              | obj fields =>
                  cases fields with
                  | nil => cases h
                  | cons kv fields => cases h
              | str s =>
                  cases s with
                  | nil => cases h
                  | cons c s => cases h
              | _ => cases h
  · exact List.map_eq_nil_iff.mp (Except.ok.inj h).symm

/-! ## What is hashed -/

/-- The signature of an event with an exception. -/
def frameSignature (platform type : Json) (views : List View) : Json :=
  .obj [(py "v", .int 1), (py "platform", platform), (py "type", type),
    (py "frames", .arr (views.map fun v => .arr [v.filename, v.function]))]

theorem exceptionSignature_eq_frameSignature (platform : Json) (root : Dict) (frames : List Json) :
    exceptionSignature platform root frames = frameSignature platform (root.get "type")
      (selectLast View.inApp ((frames.filterMap asDict).map viewOf)) := by
  rw [selectLast_map, exceptionSignature, selectedFrames_eq, frameSignature, List.map_map]
  rfl

theorem filterMap_asDict (frames : List Dict) :
    (frames.map Json.obj).filterMap asDict = frames := by
  rw [List.filterMap_map]
  exact List.filterMap_some

/-- The frames of the root cause after symbolication, seen through the fingerprint. -/
theorem hashedViews_symbolicated (h : Resolves rt call) {exception : Dict}
    (hexc : (symbolicated rt call).get "exception" = .obj exception) :
    (walkToRootCause maxCauseDepth exception).get "type" = (rootCause call).get "type" ∧
      ∃ frames, rootFrames (walkToRootCause maxCauseDepth exception) = .ok frames ∧
        selectLast View.inApp ((frames.filterMap asDict).map viewOf) = hashedViews rt call := by
  obtain ⟨exc, hget⟩ := h.exception
  have hroot : rootCause call =
      walkToRootCause maxCauseDepth (normalizeException (maxCauseDepth - 1) exc) := by
    rw [rootCause, hget]
  obtain ⟨hyes, hno⟩ := symbolicated_exception rt hget
  cases hs : symbolicates rt call with
  | false =>
      cases hexc.symm.trans (hno hs)
      refine ⟨by rw [hroot], (crashFrames call).map .obj, hroot ▸ h.frames, ?_⟩
      rw [filterMap_asDict, hashedViews, hs]
      rfl
  | true =>
      obtain ⟨release, out, hrelease, hout, hexc'⟩ := hyes hs
      cases hexc.symm.trans hexc'
      obtain ⟨top, htop, hkeys⟩ := walkToRootCause_symbolicated maxCauseDepth hout
      rw [← hroot] at htop
      have hst : py "stacktrace" ≠ py "cause" := by decide
      have htype : py "type" ≠ py "stacktrace" := by decide
      have hframes : rootFrames (walkToRootCause maxCauseDepth exception) = rootFrames top := by
        unfold rootFrames
        rw [hkeys "stacktrace" hst]
      refine ⟨(hkeys "type" (by decide)).trans (symbolicateStacktrace_get htype htop), ?_⟩
      rw [hframes, hashedViews, hs, if_pos rfl, hashedTraces, ← selectLast_map]
      obtain ⟨st, frames, dir, frames', hgetst, hgetframes, hdir, hmap, rfl⟩ | ⟨hnolist, rfl⟩ :=
        symbolicateStacktrace_cases htop
      · have hcrash := (rootFrames_of_list hgetst hgetframes).symm.trans h.frames
        cases hcrash
        refine ⟨frames', rootFrames_of_list (Dict.get_set_self ..) (Dict.get_set_self ..), ?_⟩
        rw [views_symbolicated hrelease hdir h.resolves hmap]
        rfl
      · have hempty := frames_list hnolist h.frames
        refine ⟨[], h.frames.trans (by rw [hempty]; rfl), ?_⟩
        rw [traces, hempty]
        rfl

theorem fingerprintSignature_symbolicated (h : Resolves rt call) :
    fingerprintSignature rt (symbolicated rt call) =
      .ok (frameSignature (.str (py "javascript")) ((rootCause call).get "type")
        (hashedViews rt call)) := by
  have hplatform : (symbolicated rt call).get "platform" = .str (py "javascript") :=
    (symbolicated_get rt call (by decide)).trans h.javascript
  obtain ⟨exc, hget⟩ := h.exception
  have hexc : ∃ exception, (symbolicated rt call).get "exception" = .obj exception := by
    obtain ⟨hyes, hno⟩ := symbolicated_exception rt hget
    cases hs : symbolicates rt call with
    | false => exact ⟨_, hno hs⟩
    | true =>
        obtain ⟨_, out, -, -, hout⟩ := hyes hs
        exact ⟨out, hout⟩
  obtain ⟨exception, hexc⟩ := hexc
  obtain ⟨htype, frames, hframes, hviews⟩ := hashedViews_symbolicated h hexc
  rw [fingerprintSignature, hexc]
  simp only [hframes, bind, Except.bind, pure, Except.pure, hplatform]
  rw [exceptionSignature_eq_frameSignature, htype, hviews]

/-- The texts of what is hashed of one frame. -/
def View.text (rt : Runtime) (v : View) : PyStr :=
  py "[" ++ rt.dumps v.filename ++ py "," ++ rt.dumps v.function ++ py "]"

/-- The keys are sorted: the frames come first. -/
theorem dumps_frameSignature (platform type : Json) (views : List View) :
    rt.dumps (frameSignature platform type views) = py "\x7b\"frames\":[" ++
      Runtime.joinComma (views.map (View.text rt)) ++
      (py "],\"platform\":" ++ rt.dumps platform ++ py ",\"type\":" ++ rt.dumps type ++
        py ",\"v\":1\x7d") := by
  have hrows (views : List View) :
      rt.dumpsItems (views.map fun v => .arr [v.filename, v.function]) =
        views.map (View.text rt) := by
    induction views with
    | nil => rfl
    | cons v views ih =>
        rw [List.map_cons, List.map_cons, Runtime.dumpsItems, ih]
        rfl
  have hframes : rt.dumps (.arr (views.map fun v => .arr [v.filename, v.function])) =
      py "[" ++ (Runtime.joinComma (views.map (View.text rt)) ++ py "]") := by
    rw [Runtime.dumps, hrows, List.append_assoc]
  have hsorted (a b c d : PyStr) :
      [(py "v", a), (py "platform", b), (py "type", c), (py "frames", d)].insertionSort
        Runtime.keyLe = [(py "frames", d), (py "platform", b), (py "type", c), (py "v", a)] := rfl
  have hbefore : py "\x7b\"frames\":[" = py "\x7b" ++ (Runtime.quote (py "frames") ++
      (py ":" ++ py "[")) := rfl
  have hplatform : py "],\"platform\":" = py "]" ++ (py "," ++
      (Runtime.quote (py "platform") ++ py ":")) := rfl
  have htype : py ",\"type\":" = py "," ++ (Runtime.quote (py "type") ++ py ":") := rfl
  have hafter : py ",\"v\":1\x7d" = py "," ++ (Runtime.quote (py "v") ++ (py ":" ++
      (rt.dumps (.int 1) ++ py "\x7d"))) := rfl
  rw [frameSignature, Runtime.dumps, hbefore, hplatform, htype, hafter]
  simp only [Runtime.dumpsFields, hsorted, hframes, List.map_cons, List.map_nil, Runtime.joinComma,
    List.append_assoc]

end Symbolication

section Fingerprints

variable (rt : Runtime)

/-- The bytes that are digested. -/
def hashInput (call : EventCall) : Except PyError (List UInt8) := do
  utf8Encode (rt.dumps (← fingerprintSignature rt (symbolicated rt call)))

def hashedTexts (call : EventCall) : List PyStr := (hashedViews rt call).map (View.text rt)

/-- No lone surrogate is hashed, so that the event is no poison. -/
structure Hashable (call : EventCall) : Prop where
  type : (rt.dumps ((rootCause call).get "type")).Encodable
  texts : ∀ text ∈ hashedTexts rt call, PyStr.Encodable text

/-- Normalisation, symbolication and fingerprinting, one after the other. -/
def fingerprintOf (call : EventCall) : Except PyError PyStr := do
  let normalized ← normalizeEnvelope rt call.envelope
  computeFingerprint rt (symbolicateEnvelope rt call.maps normalized (uuidStr call.orgId)
    (uuidStr call.projectId))

/-- Both events get a fingerprint, and the same. -/
def SameFingerprint (c₁ c₂ : EventCall) : Prop :=
  ∃ fingerprint, fingerprintOf rt c₁ = .ok fingerprint ∧ fingerprintOf rt c₂ = .ok fingerprint

/-- SHA-256 tells the signatures of the two events apart. -/
def CollisionFree (c₁ c₂ : EventCall) : Prop :=
  ∀ x y, hashInput rt c₁ = .ok x → hashInput rt c₂ = .ok y → rt.sha256 x = rt.sha256 y → x = y

variable {rt}

theorem computeFingerprint_ok {call : EventCall} {fingerprint : PyStr} :
    computeFingerprint rt (symbolicated rt call) = .ok fingerprint ↔
      ∃ x, hashInput rt call = .ok x ∧ fingerprint = rt.hexdigest x := by
  unfold computeFingerprint hashInput
  simp only [bind, Except.bind, pure, Except.pure]
  cases fingerprintSignature rt (symbolicated rt call) with
  | error e => simp
  | ok sig =>
      dsimp only
      cases utf8Encode (rt.dumps sig) with
      | error e => simp
      | ok x => simp [eq_comm]

theorem fingerprintOf_ok {call : EventCall} {fingerprint : PyStr} :
    fingerprintOf rt call = .ok fingerprint ↔ Copyable rt call.envelope ∧
      ∃ x, hashInput rt call = .ok x ∧ fingerprint = rt.hexdigest x := by
  rw [← computeFingerprint_ok, fingerprintOf, normalizeEnvelope_eq, bind_ite_ok]
  split_ifs with hcopy
  · exact (and_iff_right hcopy).symm
  · simp [hcopy]

theorem encodable_append_iff {s t : PyStr} :
    PyStr.Encodable (s ++ t) ↔ s.Encodable ∧ t.Encodable := List.forall_mem_append

theorem joinComma_encodable_iff {parts : List PyStr} :
    (Runtime.joinComma parts).Encodable ↔ ∀ s ∈ parts, PyStr.Encodable s := by
  refine ⟨fun h => ?_, joinComma_encodable⟩
  induction parts with
  | nil => exact fun s hs => by cases hs
  | cons s parts ih =>
      rw [joinComma_cons, encodable_append_iff] at h
      have hrest : (Runtime.joinComma parts).Encodable := by
        cases parts with
        | nil => exact h.2
        | cons t parts => exact (encodable_append_iff.mp h.2).2
      exact List.forall_mem_cons.mpr ⟨h.1, ih hrest⟩

theorem hashInput_eq {call : EventCall} (h : Resolves rt call) :
    hashInput rt call = utf8Encode (rt.dumps (frameSignature (.str (py "javascript"))
      ((rootCause call).get "type") (hashedViews rt call))) := by
  rw [hashInput, fingerprintSignature_symbolicated h]
  rfl

theorem hashInput_isOk {call : EventCall} (h : Resolves rt call) :
    (∃ x, hashInput rt call = .ok x) ↔ Hashable rt call := by
  have hplatform : (rt.dumps (.str (py "javascript"))).Encodable := py_encodable "\"javascript\""
  rw [hashInput_eq h, utf8Encode_isOk_iff, dumps_frameSignature]
  simp only [encodable_append_iff, joinComma_encodable_iff]
  constructor
  · rintro ⟨⟨-, htexts⟩, ⟨-, htype⟩, -⟩
    exact ⟨htype, htexts⟩
  · rintro ⟨htype, htexts⟩
    exact ⟨⟨py_encodable _, htexts⟩, ⟨⟨⟨py_encodable _, hplatform⟩, py_encodable _⟩, htype⟩,
      py_encodable _⟩

theorem View.text_complete (hrt : rt.FloatsPlain) (v : View) :
    Complete (v.text rt) ∧ v.text rt ≠ [] := by
  have hcomma : Enclosed (py ",") := fun _ => rfl
  have hfile := (dumps_complete hrt v.filename).enclosed
  have hfun := (dumps_complete hrt v.function).enclosed
  have hbracket := complete_bracket (hfile.append (hcomma.append hfun))
  simp only [← List.append_assoc] at hbracket
  refine ⟨hbracket, ?_⟩
  simp [View.text, py]

/-- Different texts of the hashed frames give different signatures. -/
theorem texts_of_dumps (hrt : rt.FloatsPlain) {platform type : Json} {views views' : List View}
    (h : rt.dumps (frameSignature platform type views) =
      rt.dumps (frameSignature platform type views')) :
    views.map (View.text rt) = views'.map (View.text rt) := by
  rw [dumps_frameSignature, dumps_frameSignature] at h
  have hjoin := List.append_cancel_left (List.append_cancel_right h)
  refine joinComma_injective (fun s hs => ?_) (fun s hs => ?_) hjoin
  · obtain ⟨v, -, rfl⟩ := List.mem_map.mp hs
    exact v.text_complete hrt
  · obtain ⟨v, -, rfl⟩ := List.mem_map.mp hs
    exact v.text_complete hrt

/-- Two events that can be copied and agree in what is hashed get the same fingerprint. -/
theorem sameFingerprint_of_texts {c₁ c₂ : EventCall} (h₁ : Resolves rt c₁) (h₂ : Resolves rt c₂)
    (hcopy₁ : Copyable rt c₁.envelope) (hcopy₂ : Copyable rt c₂.envelope)
    (htype : (rootCause c₁).get "type" = (rootCause c₂).get "type") (hhash : Hashable rt c₁)
    (htexts : hashedTexts rt c₁ = hashedTexts rt c₂) : SameFingerprint rt c₁ c₂ := by
  obtain ⟨x, hx⟩ := (hashInput_isOk h₁).mpr hhash
  have hsame : hashInput rt c₁ = hashInput rt c₂ := by
    rw [hashInput_eq h₁, hashInput_eq h₂, dumps_frameSignature, dumps_frameSignature, htype]
    unfold hashedTexts at htexts
    rw [htexts]
  exact ⟨rt.hexdigest x, fingerprintOf_ok.mpr ⟨hcopy₁, x, hx, rfl⟩,
    fingerprintOf_ok.mpr ⟨hcopy₂, x, hsame ▸ hx, rfl⟩⟩

/-- Two events of the same fingerprint agree in what is hashed, unless SHA-256 confuses them. -/
theorem texts_of_sameFingerprint {c₁ c₂ : EventCall} (hrt : rt.FloatsPlain)
    (h₁ : Resolves rt c₁) (h₂ : Resolves rt c₂)
    (htype : (rootCause c₁).get "type" = (rootCause c₂).get "type")
    (hfree : CollisionFree rt c₁ c₂) (h : SameFingerprint rt c₁ c₂) :
    Copyable rt c₁.envelope ∧ Copyable rt c₂.envelope ∧ Hashable rt c₁ ∧
      hashedTexts rt c₁ = hashedTexts rt c₂ := by
  obtain ⟨fingerprint, hfp₁, hfp₂⟩ := h
  obtain ⟨hcopy₁, x, hx, hfpx⟩ := fingerprintOf_ok.mp hfp₁
  obtain ⟨hcopy₂, y, hy, hfpy⟩ := fingerprintOf_ok.mp hfp₂
  have hdigest : rt.sha256 x = rt.sha256 y := hexdigest_injective (hfpx.symm.trans hfpy)
  have hbytes : x = y := hfree x y hx hy hdigest
  subst hbytes
  refine ⟨hcopy₁, hcopy₂, (hashInput_isOk h₁).mp ⟨x, hx⟩, ?_⟩
  rw [hashInput_eq h₁] at hx
  rw [hashInput_eq h₂, ← htype] at hy
  have hdumps := utf8Encode_injective hx hy
  unfold hashedTexts
  exact texts_of_dumps hrt hdumps

/-! ## Two builds of one source -/

/-- Two events of the browser with the same type whose root causes resolve frame by frame to the
same originals. -/
structure SameCrash (rt : Runtime) (c₁ c₂ : EventCall) : Prop where
  first : Resolves rt c₁
  second : Resolves rt c₂
  type : (rootCause c₁).get "type" = (rootCause c₂).get "type"
  frames : List.Forall₂ (fun f g => (viewOf f).inApp = (viewOf g).inApp ∧
    resolve rt c₁ f = resolve rt c₂ g) (crashFrames c₁) (crashFrames c₂)

/-- The minified functions that are hashed for want of an original name have the same texts. -/
def KeptFunctionsAgree (rt : Runtime) (c₁ c₂ : EventCall) : Prop :=
  List.Forall₂ (fun t u => t.2.name = none →
    rt.dumps (t.1.get "function") = rt.dumps (u.1.get "function"))
    (hashedTraces rt c₁) (hashedTraces rt c₂)

/-- What it takes for the two events to be grouped: both can be copied, and nothing minified that
differs is hashed. -/
structure GroupsTogether (rt : Runtime) (c₁ c₂ : EventCall) : Prop where
  first : Copyable rt c₁.envelope
  second : Copyable rt c₂.envelope
  hashable : Hashable rt c₁
  functions : symbolicates rt c₁ = true → symbolicates rt c₂ = true → KeptFunctionsAgree rt c₁ c₂
  minified : ¬ (symbolicates rt c₁ = true ∧ symbolicates rt c₂ = true) →
    hashedTexts rt c₁ = hashedTexts rt c₂

theorem traces_agree {c₁ c₂ : EventCall} (h : SameCrash rt c₁ c₂) :
    List.Forall₂ (fun t u => t.2 = u.2 ∧ (viewOf t.1).inApp = (viewOf u.1).inApp)
      (hashedTraces rt c₁) (hashedTraces rt c₂) := by
  refine selectLast_forall₂ (fun t u htu => ?_) ?_
  · rw [Original.view, Original.view, htu.1, htu.2]
  · unfold traces
    have hresolves := h.first.resolves
    have hframes := h.frames
    generalize crashFrames c₁ = frames₁ at hresolves hframes
    generalize crashFrames c₂ = frames₂ at hframes
    induction hframes with
    | nil => exact .nil
    | @cons f g fs gs hfg _ ih =>
        obtain ⟨o, ho, -⟩ := hresolves f (List.mem_cons_self ..)
        have ho' : resolve rt c₂ g = some o := hfg.2 ▸ ho
        rw [List.filterMap_cons_some (by rw [ho]; rfl), List.filterMap_cons_some (by rw [ho']; rfl)]
        exact .cons ⟨rfl, hfg.1⟩ (ih fun f' hf' => hresolves f' (List.mem_cons_of_mem f hf'))

/-- With both chains symbolicated only the functions without an original name can differ. -/
theorem hashedTexts_eq_iff {c₁ c₂ : EventCall} (h : SameCrash rt c₁ c₂)
    (hs₁ : symbolicates rt c₁ = true) (hs₂ : symbolicates rt c₂ = true) :
    hashedTexts rt c₁ = hashedTexts rt c₂ ↔ KeptFunctionsAgree rt c₁ c₂ := by
  have htext (t u : Dict × Original) (htu : t.2 = u.2) :
      (t.2.view t.1).text rt = (u.2.view u.1).text rt ↔
        (t.2.name = none → rt.dumps (t.1.get "function") = rt.dumps (u.1.get "function")) := by
    have hfile : (t.2.view t.1).filename = (u.2.view u.1).filename := by rw [htu]; rfl
    have hcancel : (t.2.view t.1).text rt = (u.2.view u.1).text rt ↔
        rt.dumps (t.2.view t.1).function = rt.dumps (u.2.view u.1).function := by
      rw [View.text, View.text, hfile, List.append_cancel_right_eq, List.append_cancel_left_eq]
    rw [hcancel, Original.view, Original.view, ← htu]
    cases t.2.name with
    | none => simp
    | some name => simp
  have htraces := traces_agree h
  unfold hashedTexts hashedViews KeptFunctionsAgree
  rw [hs₁, hs₂, if_pos rfl, if_pos rfl]
  generalize hashedTraces rt c₁ = traces₁ at htraces ⊢
  generalize hashedTraces rt c₂ = traces₂ at htraces ⊢
  induction htraces with
  | nil => simp
  | @cons t u ts us htu _ ih =>
      simp only [List.map_cons, List.cons.injEq, List.forall₂_cons, htext t u htu.1, ih]

theorem groupsTogether_iff {c₁ c₂ : EventCall} (h : SameCrash rt c₁ c₂) :
    GroupsTogether rt c₁ c₂ ↔ Copyable rt c₁.envelope ∧ Copyable rt c₂.envelope ∧
      Hashable rt c₁ ∧ hashedTexts rt c₁ = hashedTexts rt c₂ := by
  by_cases hs : symbolicates rt c₁ = true ∧ symbolicates rt c₂ = true
  · rw [hashedTexts_eq_iff h hs.1 hs.2]
    exact ⟨fun hg => ⟨hg.first, hg.second, hg.hashable, hg.functions hs.1 hs.2⟩,
      fun ⟨hcopy₁, hcopy₂, hhash, hfun⟩ => ⟨hcopy₁, hcopy₂, hhash, fun _ _ => hfun,
        fun hno => absurd hs hno⟩⟩
  · exact ⟨fun hg => ⟨hg.first, hg.second, hg.hashable, hg.minified hs⟩,
      fun ⟨hcopy₁, hcopy₂, hhash, htexts⟩ => ⟨hcopy₁, hcopy₂, hhash,
        fun h₁ h₂ => absurd ⟨h₁, h₂⟩ hs, fun _ => htexts⟩⟩

/-- Two builds of one crash get the same fingerprint when both events can be copied and nothing
minified that differs is hashed, and only then, unless SHA-256 confuses the two signatures. -/
theorem fingerprints_agree_iff (c₁ c₂ : EventCall) (h : SameCrash rt c₁ c₂) :
    (GroupsTogether rt c₁ c₂ → SameFingerprint rt c₁ c₂) ∧
      (rt.FloatsPlain → CollisionFree rt c₁ c₂ →
        (SameFingerprint rt c₁ c₂ ↔ GroupsTogether rt c₁ c₂)) := by
  rw [groupsTogether_iff h]
  have hsufficient (hg : Copyable rt c₁.envelope ∧ Copyable rt c₂.envelope ∧ Hashable rt c₁ ∧
      hashedTexts rt c₁ = hashedTexts rt c₂) : SameFingerprint rt c₁ c₂ := by
    obtain ⟨hcopy₁, hcopy₂, hhash, htexts⟩ := hg
    exact sameFingerprint_of_texts h.first h.second hcopy₁ hcopy₂ h.type hhash htexts
  exact ⟨hsufficient, fun hrt hfree =>
    ⟨texts_of_sameFingerprint hrt h.first h.second h.type hfree, hsufficient⟩⟩

end Fingerprints

section Builds

/-- The first or the second build of a source, with maps that name its function or do not. -/
structure Build where
  second : Bool
  named : Bool
deriving DecidableEq

def Build.function (b : Build) : PyStr := if b.second then py "t" else py "e"

/-- The code of the second build starts one column later. -/
def Build.column (b : Build) : ℤ := if b.second then 2 else 1

def Build.mappings (b : Build) : PyStr :=
  (if b.second then py "CAAA" else py "AAAA") ++ if b.named then py "A" else []

def Build.map (b : Build) : Json :=
  .obj [(py "mappings", .str b.mappings),
    (py "names", .arr (if b.named then [.str (py "boot")] else [])),
    (py "sources", .arr [.str (py "src/a.ts")]), (py "version", .int 3)]

def Build.file (b : Build) : List UInt8 :=
  ascii (py "\x7b\"mappings\":\"" ++ b.mappings ++ py "\",\"names\":[" ++
    (if b.named then py "\"boot\"" else []) ++
    py "],\"sources\":[\"src/a.ts\"],\"version\":3\x7d")

def builds : List Build := [⟨false, false⟩, ⟨false, true⟩, ⟨true, false⟩, ⟨true, true⟩]

def signatureFile (function : PyStr) : List UInt8 :=
  ascii (py "\x7b\"frames\":[[\"src/a.ts\",\"" ++ function ++
    py "\"]],\"platform\":\"javascript\",\"type\":\"Error\",\"v\":1\x7d")

/-- Python's runtime on the maps of the builds and the signatures of their events. -/
def buildRuntime : Runtime :=
  { sampleRuntime with
    jsonLoads := fun data => orValueError ((builds.find? fun b => b.file = data).map Build.map)
    sha256 := fun data =>
      if signatureFile (py "boot") = data then
        0xc79bc000bae4637072f87d6d5c3478e80dd456b69e7faa7e27c00be46057fcc9
      else if signatureFile (py "e") = data then
        0xf18ac0f54434ed6454a85203acd13c6b18792c7787a5c67d33c53ccaf341d560
      else if signatureFile (py "t") = data then
        0x782cf425c06763aaeacd133d97a34a27674aa5cd102d4e622b0fc9bf1497961f
      else 0 }

def Build.frame (b : Build) : Dict :=
  [(py "filename", .str (py "https://cdn.example.com/app.js")), (py "function", .str b.function),
    (py "lineno", .int 1), (py "colno", .int b.column)]

def Build.exception (b : Build) : Dict :=
  [(py "type", .str (py "Error")), (py "value", .str (py "boom")),
    (py "stacktrace", .obj [(py "frames", .arr [.obj b.frame])])]

def buildDir : Path := [uuidStr 1, uuidStr 1, py "MQ"]

/-- An event with one frame. -/
def Build.envelope (b : Build) : Dict :=
  ((sampleCall (some "1") sampleEventId 0).envelope.set "platform" (.str (py "javascript"))).set
    "exception" (.obj b.exception)

def Build.call (b : Build) : EventCall :=
  { sampleCall (some "1") sampleEventId 0 with
    envelope := b.envelope
    maps := fun path => if path = buildDir ++ [py "app.js.map"] then some b.file else none }

def Build.original (b : Build) : Original :=
  ⟨py "src/a.ts", 1, 1, if b.named then some (py "boot") else none⟩

theorem Build.resolve_frame (b : Build) :
    resolve buildRuntime b.call b.frame = some b.original := by
  obtain ⟨second, named⟩ := b
  revert second named
  decide +kernel

set_option maxRecDepth 4000 in
theorem Build.normalizeException_exception : (b : Build) →
    normalizeException (maxCauseDepth - 1) b.exception = b.exception
  | ⟨false, _⟩ => rfl
  | ⟨true, _⟩ => rfl

theorem Build.walkToRootCause_exception (b : Build) (n : ℕ) :
    walkToRootCause n b.exception = b.exception := by
  have hcause : b.exception.get "cause" = .null := rfl
  refine walkToRootCause_root n fun cause => ?_
  rw [hcause]
  exact Json.noConfusion

theorem Build.exception_call (b : Build) : b.call.envelope.get "exception" = .obj b.exception := by
  change b.envelope.get "exception" = _
  rw [Build.envelope, Dict.get_set_self]

theorem Build.platform_call (b : Build) :
    b.call.envelope.get "platform" = .str (py "javascript") := by
  have hne : py "platform" ≠ py "exception" := by decide
  change b.envelope.get "platform" = _
  rw [Build.envelope, Dict.get_set_ne _ hne, Dict.get_set_self]

theorem Build.rootFrames_call (b : Build) : rootCause b.call = b.exception ∧
    rootFrames (rootCause b.call) = .ok [.obj b.frame] ∧ crashFrames b.call = [b.frame] := by
  have hroot : rootCause b.call = b.exception := by
    rw [rootCause, b.exception_call]
    dsimp only
    rw [b.normalizeException_exception, b.walkToRootCause_exception]
  have hframes : rootFrames b.exception = .ok [.obj b.frame] := rootFrames_of_list rfl rfl
  refine ⟨hroot, by rw [hroot, hframes], ?_⟩
  rw [crashFrames, hroot, hframes]
  rfl

theorem Build.resolves_call (b : Build) : Resolves buildRuntime b.call := by
  obtain ⟨-, hframes, hcrash⟩ := b.rootFrames_call
  refine ⟨b.platform_call, ⟨_, b.exception_call⟩, by rw [hcrash]; exact hframes, fun f hf => ?_⟩
  rw [hcrash, List.mem_singleton] at hf
  refine ⟨b.original, hf ▸ b.resolve_frame, ?_⟩
  simp [Build.original, py]

/-- Builds of the same kind crash alike. -/
theorem sameCrash_build (named : Bool) :
    SameCrash buildRuntime (Build.call ⟨false, named⟩) (Build.call ⟨true, named⟩) where
  first := Build.resolves_call _
  second := Build.resolves_call _
  type := by
    have htype (b : Build) : b.exception.get "type" = .str (py "Error") := rfl
    rw [(Build.rootFrames_call _).1, (Build.rootFrames_call _).1, htype, htype]
  frames := by
    rw [(Build.rootFrames_call _).2.2, (Build.rootFrames_call _).2.2]
    have hinApp (b : Build) : (viewOf b.frame).inApp = true := rfl
    refine .cons ⟨by rw [hinApp, hinApp], ?_⟩ .nil
    rw [Build.resolve_frame, Build.resolve_frame]
    rfl

theorem Build.copyable_call (b : Build) : Copyable buildRuntime b.call.envelope := by
  obtain ⟨second, named⟩ := b
  revert second named
  decide +kernel

/-- What is digested: the name the map gives, and for want of one the minified function. -/
theorem Build.hashInput_call (b : Build) : hashInput buildRuntime b.call =
    .ok (signatureFile (if b.named then py "boot" else b.function)) := by
  obtain ⟨second, named⟩ := b
  revert second named
  decide +kernel

theorem buildRuntime_floatsPlain : buildRuntime.FloatsPlain := by
  intro b q c hc
  rw [List.mem_singleton.mp hc]
  rfl

/-- With a name in both maps the minified functions leave no trace. -/
theorem named_builds_grouped :
    SameFingerprint buildRuntime (Build.call ⟨false, true⟩) (Build.call ⟨true, true⟩) ∧
      GroupsTogether buildRuntime (Build.call ⟨false, true⟩) (Build.call ⟨true, true⟩) := by
  have hinput (second : Bool) : hashInput buildRuntime (Build.call ⟨second, true⟩) =
      .ok (signatureFile (py "boot")) := Build.hashInput_call _
  have hfree : CollisionFree buildRuntime (Build.call ⟨false, true⟩) (Build.call ⟨true, true⟩) :=
    fun x y hx hy _ => by rw [← Except.ok.inj ((hinput _).symm.trans hx),
      ← Except.ok.inj ((hinput _).symm.trans hy)]
  have hsame : SameFingerprint buildRuntime (Build.call ⟨false, true⟩) (Build.call ⟨true, true⟩) :=
    ⟨_, fingerprintOf_ok.mpr ⟨Build.copyable_call _, _, hinput _, rfl⟩,
      fingerprintOf_ok.mpr ⟨Build.copyable_call _, _, hinput _, rfl⟩⟩
  have hstable := fingerprints_agree_iff _ _ (sameCrash_build true)
  exact ⟨hsame, (hstable.2 buildRuntime_floatsPlain hfree).mp hsame⟩

/-- Without a name in either map the minified functions are hashed, and they differ. -/
theorem unnamed_builds_split :
    SameCrash buildRuntime (Build.call ⟨false, false⟩) (Build.call ⟨true, false⟩) ∧
      ¬ SameFingerprint buildRuntime (Build.call ⟨false, false⟩) (Build.call ⟨true, false⟩) := by
  refine ⟨sameCrash_build false, ?_⟩
  rintro ⟨fingerprint, hfp₁, hfp₂⟩
  obtain ⟨-, x, hx, hfpx⟩ := fingerprintOf_ok.mp hfp₁
  obtain ⟨-, y, hy, hfpy⟩ := fingerprintOf_ok.mp hfp₂
  have hdigest := hexdigest_injective (hfpx.symm.trans hfpy)
  rw [← Except.ok.inj ((Build.hashInput_call _).symm.trans hx),
    ← Except.ok.inj ((Build.hashInput_call _).symm.trans hy)] at hdigest
  exact absurd hdigest (by decide +kernel)

end Builds

end Crashlens
