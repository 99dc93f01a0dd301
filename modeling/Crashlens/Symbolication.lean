import Crashlens.RootCause

/-!
# What symbolication reads and writes

A frame is rewritten from the segment its map has at its position: file name, line and column, the
function if the map has a name for it, and the context lines. Everything else is left as it was, and
any error on the way through the chain of causes leaves the whole envelope.
-/

namespace Crashlens

/-! ## One frame -/

section Frame

/-- The segment at the position of a frame, with the path of its source. -/
def SourceMap.segmentAt (m : SourceMap) (frame : Dict) : Option (Segment × PyStr) :=
  match asInt (frame.get "lineno"), asInt (frame.get "colno") with
  | some lineno, some colno => do
    let seg ← m.lookup (lineno - 1) (max (colno - 1) 0)
    let source ← SourceMap.index m.sources seg.srcIndex
    return (seg, source)
  | _, _ => none

/-- The original name of a segment; an empty name is none. -/
def SourceMap.nameOf (m : SourceMap) (seg : Segment) : Option PyStr :=
  (seg.nameIndex.bind (SourceMap.index m.names)).filter fun s => !s.isEmpty

variable {m : SourceMap} {frame : Dict}

theorem symbolicateFrame_none (h : m.segmentAt frame = none) :
    symbolicateFrame frame m = frame := by
  unfold SourceMap.segmentAt at h
  unfold symbolicateFrame
  split
  · next lineno colno hline hcol =>
      rw [hline, hcol] at h
      cases hseg : m.lookup (lineno - 1) (max (colno - 1) 0) with
      | none => rfl
      | some seg =>
          cases hsource : SourceMap.index m.sources seg.srcIndex with
          | none => simp [hsource]
          | some source => simp [hseg, hsource] at h
  · rfl

def Dict.setAll (d : Dict) (ws : List (String × Json)) : Dict :=
  ws.foldl (fun d w => d.set w.1 w.2) d

/-! What `symbolicateFrame` writes: the name, the verdict on the path and the context lines depend
on what the map has. -/

def positionWrites (frame : Dict) (seg : Segment) (path : Json) : List (String × Json) :=
  [("raw_filename", frame.get "filename"), ("raw_lineno", frame.get "lineno"),
    ("filename", path), ("lineno", .int (seg.origLine + 1)), ("colno", .int (seg.origCol + 1))]

def functionWrites : Option PyStr → List (String × Json)
  | some (c :: cs) => [("function", .str (c :: cs))]
  | _ => []

def inAppWrites : Json → List (String × Json)
  | .str p => if containsSub (py "node_modules") p then [("in_app", .bool false)] else []
  | _ => []

def contextWrites : Option (PyStr × List PyStr × List PyStr) → List (String × Json)
  | some (contextLine, pre, post) =>
    [("context_line", .str contextLine), ("pre_context", .arr (pre.map .str)),
      ("post_context", .arr (post.map .str))]
  | none => []

def Dict.writePosition (frame : Dict) (seg : Segment) (path : Json) : Dict :=
  frame.setAll (positionWrites frame seg path)

def Dict.writeFunction (out : Dict) (name : Option PyStr) : Dict := out.setAll (functionWrites name)

def Dict.writeInApp (out : Dict) (path : Json) : Dict := out.setAll (inAppWrites path)

def Dict.writeContext (out : Dict) (context : Option (PyStr × List PyStr × List PyStr)) : Dict :=
  out.setAll (contextWrites context)

section Writes

variable (out : Dict) {key : String}

theorem writeFunction_lookup (name : Option PyStr) (h : py key ≠ py "function") :
    (out.writeFunction name).lookup (py key) = out.lookup (py key) := by
  rcases name with _ | _ | ⟨c, cs⟩
  · rfl
  · rfl
  · exact Dict.lookup_set_ne out h _

theorem writeFunction_function (name : Option PyStr) : (out.writeFunction name).get "function" =
    ((name.filter fun s => !s.isEmpty).map Json.str).getD (out.get "function") := by
  rcases name with _ | _ | ⟨c, cs⟩
  · rfl
  · rfl
  · exact Dict.get_set_self out _ _

theorem writeInApp_lookup (path : Json) (h : py key ≠ py "in_app") :
    (out.writeInApp path).lookup (py key) = out.lookup (py key) := by
  unfold Dict.writeInApp inAppWrites
  split
  · split_ifs
    · exact Dict.lookup_set_ne out h _
    · rfl
  · rfl

theorem writeInApp_inApp (path : PyStr) (default : Json) :
    (out.writeInApp (.str path)).getD "in_app" default =
      if containsSub (py "node_modules") path then .bool false
      else out.getD "in_app" default := by
  unfold Dict.writeInApp inAppWrites
  dsimp only
  split_ifs
  · exact Dict.getD_set_self ..
  · rfl

theorem writeContext_lookup (context : Option (PyStr × List PyStr × List PyStr))
    (hline : py key ≠ py "context_line") (hpre : py key ≠ py "pre_context")
    (hpost : py key ≠ py "post_context") :
    (out.writeContext context).lookup (py key) = out.lookup (py key) := by
  rcases context with _ | ⟨line, pre, post⟩
  · rfl
  · exact (Dict.lookup_set_ne _ hpost _).trans
      ((Dict.lookup_set_ne _ hpre _).trans (Dict.lookup_set_ne _ hline _))

end Writes

theorem writePosition_lookup (seg : Segment) (path : Json) {key : String}
    (h : py key ∉ [py "raw_filename", py "raw_lineno", py "filename", py "lineno", py "colno"]) :
    (frame.writePosition seg path).lookup (py key) = frame.lookup (py key) := by
  simp only [List.mem_cons, List.not_mem_nil, or_false, not_or] at h
  obtain ⟨hrawFile, hrawLine, hfile, hline, hcol⟩ := h
  dsimp only [Dict.writePosition, Dict.setAll, positionWrites, List.foldl_cons, List.foldl_nil]
  rw [Dict.lookup_set_ne _ hcol, Dict.lookup_set_ne _ hline, Dict.lookup_set_ne _ hfile,
    Dict.lookup_set_ne _ hrawLine, Dict.lookup_set_ne _ hrawFile]

theorem writePosition_filename (seg : Segment) (path : Json) :
    (frame.writePosition seg path).get "filename" = path := by
  have hline : py "filename" ≠ py "lineno" := by decide
  have hcol : py "filename" ≠ py "colno" := by decide
  dsimp only [Dict.writePosition, Dict.setAll, positionWrites, List.foldl_cons, List.foldl_nil]
  rw [Dict.get_set_ne _ hcol, Dict.get_set_ne _ hline, Dict.get_set_self]

/-- The path a frame takes over; an unnamed source leaves the one it has. -/
def originalPath (frame : Dict) (source : PyStr) : Json :=
  if source = [] then frame.get "filename" else .str source

/-- The frame symbolication makes of the segment and the source at its position. -/
def Dict.rewrite (frame : Dict) (m : SourceMap) (seg : Segment) (source : PyStr) : Dict :=
  let path := originalPath frame source
  (((frame.writePosition seg path).writeFunction (seg.nameIndex.bind (SourceMap.index m.names))
    ).writeInApp path).writeContext (m.sourceContext seg.srcIndex seg.origLine)

/-- The fields a frame takes over from the segment at its position. -/
def writes (frame : Dict) (m : SourceMap) (seg : Segment) (source : PyStr) :
    List (String × Json) :=
  positionWrites frame seg (originalPath frame source) ++
    functionWrites (seg.nameIndex.bind (SourceMap.index m.names)) ++
    inAppWrites (originalPath frame source) ++
    contextWrites (m.sourceContext seg.srcIndex seg.origLine)

theorem rewrite_eq_setAll (frame : Dict) (m : SourceMap) (seg : Segment) (source : PyStr) :
    frame.rewrite m seg source = frame.setAll (writes frame m seg source) := by
  unfold writes Dict.setAll
  rw [List.foldl_append, List.foldl_append, List.foldl_append]
  rfl

theorem symbolicateFrame_some {seg : Segment} {source : PyStr}
    (h : m.segmentAt frame = some (seg, source)) :
    symbolicateFrame frame m = frame.rewrite m seg source := by
  unfold SourceMap.segmentAt at h
  split at h
  · next lineno colno hline hcol =>
      simp only [Option.bind_eq_bind, Option.bind_eq_some_iff, pure, Option.some.injEq,
        Prod.mk.injEq] at h
      obtain ⟨seg', hseg, source', hsource, rfl, rfl⟩ := h
      have hfunction (d : Dict) (name : Option PyStr) : d.writeFunction name = match name with
          | some (c :: cs) => d.set "function" (.str (c :: cs))
          | _ => d := by
        rcases name with _ | _ | ⟨c, cs⟩ <;> rfl
      have hinApp (d : Dict) (path : Json) : d.writeInApp path = match path with
          | .str p => if containsSub (py "node_modules") p then d.set "in_app" (.bool false) else d
          | _ => d := by
        cases path with
        | str p =>
            dsimp only [Dict.writeInApp, inAppWrites]
            split_ifs <;> rfl
        | _ => rfl
      have hcontext (d : Dict) (context : Option (PyStr × List PyStr × List PyStr)) :
          d.writeContext context = match context with
            | some (contextLine, pre, post) =>
              let out := d.set "context_line" (.str contextLine)
              let out := Dict.set out "pre_context" (.arr (pre.map .str))
              Dict.set out "post_context" (.arr (post.map .str))
            | none => d := by
        rcases context with _ | ⟨line, pre, post⟩ <;> rfl
      unfold symbolicateFrame
      simp only [hline, hcol, hseg, hsource, Dict.rewrite, hfunction, hinApp, hcontext]
      rfl
  · cases h

variable (m frame) (seg : Segment) (source : PyStr)

theorem rewrite_filename : (frame.rewrite m seg source).get "filename" =
    if source = [] then frame.get "filename" else .str source := by
  unfold Dict.rewrite Dict.get
  rw [writeContext_lookup _ _ (by decide) (by decide) (by decide),
    writeInApp_lookup _ _ (by decide), writeFunction_lookup _ _ (by decide)]
  exact writePosition_filename ..

theorem rewrite_function : (frame.rewrite m seg source).get "function" =
    ((m.nameOf seg).map Json.str).getD (frame.get "function") := by
  unfold Dict.rewrite
  rw [Dict.get, writeContext_lookup _ _ (by decide) (by decide) (by decide),
    writeInApp_lookup _ _ (by decide)]
  refine (writeFunction_function ..).trans ?_
  rw [Dict.get, writePosition_lookup _ _ (by decide)]
  rfl

theorem rewrite_inApp (h : source ≠ []) (default : Json) :
    (frame.rewrite m seg source).getD "in_app" default =
      if containsSub (py "node_modules") source then .bool false
      else frame.getD "in_app" default := by
  unfold Dict.rewrite originalPath
  rw [Dict.getD, writeContext_lookup _ _ (by decide) (by decide) (by decide), if_neg h]
  refine (writeInApp_inApp ..).trans ?_
  rw [Dict.getD, writeFunction_lookup _ _ (by decide), writePosition_lookup _ _ (by decide)]
  rfl

/-- The context lines are those of the source where the map has it, and else the frame's own. -/
theorem rewrite_context :
    (∃ line pre post, m.sourceContext seg.srcIndex seg.origLine = some (line, pre, post) ∧
      (frame.rewrite m seg source).get "context_line" = .str line ∧
      (frame.rewrite m seg source).get "pre_context" = .arr (pre.map .str) ∧
      (frame.rewrite m seg source).get "post_context" = .arr (post.map .str)) ∨
    (m.sourceContext seg.srcIndex seg.origLine = none ∧
      ∀ key ∈ ["context_line", "pre_context", "post_context"],
        (frame.rewrite m seg source).get key = frame.get key) := by
  unfold Dict.rewrite
  rcases hcontext : m.sourceContext seg.srcIndex seg.origLine with _ | ⟨line, pre, post⟩
  · refine .inr ⟨rfl, fun key hkey => ?_⟩
    have hinApp : ∀ key ∈ ["context_line", "pre_context", "post_context"], py key ≠ py "in_app" ∧
        py key ≠ py "function" ∧ py key ∉ [py "raw_filename", py "raw_lineno", py "filename",
          py "lineno", py "colno"] := by decide
    obtain ⟨hin, hfun, hpos⟩ := hinApp key hkey
    unfold Dict.get
    dsimp only [Dict.writeContext, contextWrites, Dict.setAll, List.foldl_nil]
    rw [writeInApp_lookup _ _ hin, writeFunction_lookup _ _ hfun, writePosition_lookup _ _ hpos]
  · dsimp only [Dict.writeContext, contextWrites, Dict.setAll, List.foldl_cons, List.foldl_nil]
    refine .inl ⟨line, pre, post, rfl, ?_, ?_, Dict.get_set_self ..⟩
    · exact (Dict.get_set_ne _ (by decide) _).trans
        ((Dict.get_set_ne _ (by decide) _).trans (Dict.get_set_self ..))
    · exact (Dict.get_set_ne _ (by decide) _).trans (Dict.get_set_self ..)

end Frame

/-! ## The whole envelope -/

section Event

variable (rt : Runtime) (call : EventCall)

/-- The release symbolication looks maps up under. -/
def mapRelease : Option PyStr :=
  match call.envelope.get "release" with
  | .str (c :: release) => some (c :: release)
  | _ => none

/-- Looking for the map of the frame raises nothing. -/
def frameLoads (dir : Path) : Json → Bool
  | .obj frame =>
    match basenameFromFrameFilename (Dict.get frame "filename") with
    | some basename => (firstMap rt call.maps dir (mapCandidates basename)).isOk
    | none => true
  | _ => true

def stackLoads (release : PyStr) (exception : Dict) : Bool :=
  match exception.get "stacktrace" with
  | .obj stacktrace =>
    match Dict.get stacktrace "frames" with
    | .arr frames =>
      match releaseMapsDir (uuidStr call.orgId) (uuidStr call.projectId) release with
      | .ok dir => frames.all (frameLoads rt call dir)
      | .error _ => false
    | _ => true
  | _ => true

/-- The event is one of the browser with a release and an exception, and looking for the maps raises
nothing in the whole chain of causes. -/
def symbolicates : Bool :=
  match call.envelope.get "platform", mapRelease call, call.envelope.get "exception" with
  | .str platform, some release, .obj exception =>
    let normalized := normalizeException (maxCauseDepth - 1) exception
    platform = py "javascript" &&
      (List.range maxCauseDepth).all fun n =>
        stackLoads rt call release (walkToRootCause n normalized)
  | _, _, _ => false

end Event

section Chain

variable {rt : Runtime} {call : EventCall}

theorem mapM_eq_ok {ε α β : Type} {f : α → Except ε β} {xs : List α} {ys : List β} :
    xs.mapM f = .ok ys ↔ List.Forall₂ (fun x y => f x = .ok y) xs ys := by
  induction xs generalizing ys with
  | nil => simp [pure, Except.pure, eq_comm]
  | cons x xs ih =>
      rw [List.mapM_cons]
      simp only [bind, Except.bind, pure, Except.pure]
      cases hx : f x with
      | error e => simp [List.forall₂_cons_left_iff, hx]
      | ok y =>
          cases hxs : xs.mapM f with
          | error e =>
              simp only [reduceCtorEq, false_iff]
              intro h
              obtain ⟨_, ys', -, hys, -⟩ := List.forall₂_cons_left_iff.mp h
              rw [← ih, hxs] at hys
              cases hys
          | ok ys' =>
              have hys := ih.mp hxs
              simp only [Except.ok.injEq]
              constructor
              · rintro rfl
                exact .cons hx hys
              · intro h
                obtain ⟨y', ys'', hy, hys', rfl⟩ := List.forall₂_cons_left_iff.mp h
                rw [← ih, hxs] at hys'
                rw [hx] at hy
                cases hy
                cases hys'
                rfl

theorem mapM_isOk {α β : Type} (f : α → Except PyError β) (xs : List α) :
    (∃ ys, xs.mapM f = .ok ys) ↔ ∀ x ∈ xs, ∃ y, f x = .ok y := by
  simp only [mapM_eq_ok]
  induction xs with
  | nil => simp
  | cons x xs ih =>
      rw [List.forall_mem_cons, ← ih]
      constructor
      · rintro ⟨ys, h⟩
        obtain ⟨y, ys', hy, hys, -⟩ := List.forall₂_cons_left_iff.mp h
        exact ⟨⟨y, hy⟩, ys', hys⟩
      · rintro ⟨⟨y, hy⟩, ys, hys⟩
        exact ⟨y :: ys, .cons hy hys⟩

theorem isOk_iff {α : Type} {x : Except PyError α} : x.isOk = true ↔ ∃ a, x = .ok a := by
  cases x with
  | ok a => simp [Except.isOk, Except.toBool]
  | error e => simp [Except.isOk, Except.toBool]

theorem symbolicateStackFrame_isOk {dir : Path} {frame : Json} :
    (∃ out, symbolicateStackFrame rt call.maps dir frame = .ok out) ↔
      frameLoads rt call dir frame = true := by
  cases frame with
  | obj frame =>
      rw [symbolicateStackFrame, frameLoads]
      cases basenameFromFrameFilename (Dict.get frame "filename") with
      | none => simp
      | some basename =>
          dsimp only
          rw [isOk_iff]
          cases firstMap rt call.maps dir (mapCandidates basename) with
          | error e => simp [bind, Except.bind]
          | ok found =>
              cases found with
              | none => simp [bind, Except.bind, pure, Except.pure]
              | some m => simp [bind, Except.bind, pure, Except.pure]
  | _ => simp [symbolicateStackFrame, frameLoads]

/-- Symbolication of a stack trace raises exactly when looking for the map of a frame does. -/
theorem symbolicateStacktrace_isOk {release : PyStr} {d : Dict} :
    (∃ out, symbolicateStacktrace rt call.maps (uuidStr call.orgId) (uuidStr call.projectId)
      release d = .ok out) ↔ stackLoads rt call release d = true := by
  unfold symbolicateStacktrace stackLoads
  cases hst : d.get "stacktrace" with
  | obj stacktrace =>
      dsimp only
      cases hframes : Dict.get stacktrace "frames" with
      | arr frames =>
          dsimp only
          cases releaseMapsDir (uuidStr call.orgId) (uuidStr call.projectId) release with
          | error e => simp [bind, Except.bind]
          | ok dir =>
              have hall := mapM_isOk (symbolicateStackFrame rt call.maps dir) frames
              simp only [symbolicateStackFrame_isOk] at hall
              rw [List.all_eq_true, ← hall]
              simp only [bind, Except.bind, pure, Except.pure]
              cases frames.mapM (symbolicateStackFrame rt call.maps dir) with
              | error e => simp
              | ok out => simp
      | _ => simp
  | _ => simp

/-- Symbolication of an exception raises exactly when it does for its stack trace or its cause. -/
theorem symbolicateException_isOk_iff {files : Filesystem} {orgId projectId release : PyStr}
    {d : Dict} :
    (∃ out, symbolicateException rt files orgId projectId release d = .ok out) ↔
      (∃ top, symbolicateStacktrace rt files orgId projectId release d = .ok top) ∧
      ∀ cause, d.get "cause" = .obj cause →
        ∃ out, symbolicateException rt files orgId projectId release cause = .ok out := by
  constructor
  · rintro ⟨out, hout⟩
    obtain ⟨top, htop, ⟨cause, cause', hget, -, hrec⟩ | ⟨hno, -⟩⟩ := symbolicateException_cases hout
    · refine ⟨⟨top, htop⟩, fun c hc => ?_⟩
      cases hget.symm.trans hc
      exact ⟨cause', hrec⟩
    · exact ⟨⟨top, htop⟩, fun c hc => absurd hc (hno c)⟩
  · rintro ⟨⟨top, htop⟩, hcause⟩
    rw [symbolicateException]
    simp only [htop, bind, Except.bind, pure, Except.pure]
    split
    · next cause hget =>
        obtain ⟨out, hout⟩ := hcause cause hget
        exact ⟨_, by rw [hout]⟩
    · exact ⟨top, rfl⟩

theorem symbolicateException_isOk_step {release : PyStr} {d : Dict} :
    (∃ out, symbolicateException rt call.maps (uuidStr call.orgId) (uuidStr call.projectId)
      release d = .ok out) ↔ stackLoads rt call release d = true ∧
      ∀ cause, d.get "cause" = .obj cause → ∃ out, symbolicateException rt call.maps
        (uuidStr call.orgId) (uuidStr call.projectId) release cause = .ok out := by
  rw [← symbolicateStacktrace_isOk]
  exact symbolicateException_isOk_iff

/-- Symbolication of a chain raises exactly when it does for one of its stack traces. -/
theorem symbolicateException_isOk (rt : Runtime) (call : EventCall) (release : PyStr) {n : ℕ}
    {d : Dict} (hroot : ∀ cause, (walkToRootCause n d).get "cause" ≠ .obj cause) :
    (∃ out, symbolicateException rt call.maps (uuidStr call.orgId) (uuidStr call.projectId)
      release d = .ok out) ↔
      ∀ k ≤ n, stackLoads rt call release (walkToRootCause k d) = true := by
  induction n generalizing d with
  | zero =>
      rw [symbolicateException_isOk_step]
      constructor
      · rintro ⟨htop, -⟩ k hk
        obtain rfl : k = 0 := by omega
        exact htop
      · exact fun h => ⟨h 0 (by omega), fun cause hc => absurd hc (hroot cause)⟩
  | succ n ih =>
      rw [symbolicateException_isOk_step]
      by_cases hcause : ∃ cause, d.get "cause" = .obj cause
      · obtain ⟨cause, hget⟩ := hcause
        have hrest := ih (walkToRootCause_cause n hget ▸ hroot)
        constructor
        · rintro ⟨htop, hc⟩ k hk
          cases k with
          | zero => exact htop
          | succ k =>
              rw [walkToRootCause_cause k hget]
              exact hrest.mp (hc cause hget) k (by omega)
        · intro h
          refine ⟨h 0 (by omega), fun c hc => ?_⟩
          cases hget.symm.trans hc
          refine hrest.mpr fun k hk => ?_
          rw [← walkToRootCause_cause k hget]
          exact h (k + 1) (by omega)
      · have hno : ∀ cause, d.get "cause" ≠ .obj cause := fun c hc => hcause ⟨c, hc⟩
        constructor
        · rintro ⟨htop, -⟩ k -
          rw [walkToRootCause_root k hno]
          exact htop
        · exact fun h => ⟨h 0 (by omega), fun c hc => absurd hc (hno c)⟩

/-- A chain that was cut off at its maximal depth ends there. -/
theorem normalizeException_root (left : ℕ) (d : Dict) :
    ∀ cause, (walkToRootCause left (normalizeException left d)).get "cause" ≠ .obj cause := by
  induction left generalizing d with
  | zero =>
      intro cause h
      rw [walkToRootCause, normalizeException, Dict.get_pop_self] at h
      cases h
  | succ left ih =>
      cases hget : d.get "cause" with
      | obj c =>
          have hcause : (normalizeException (left + 1) d).get "cause" =
              .obj (normalizeException left c) := by
            rw [normalizeException, hget]
            exact Dict.get_set_self ..
          rw [walkToRootCause_cause left hcause]
          exact ih c
      | _ =>
          have hnone : (normalizeException (left + 1) d).get "cause" = .null := by
            rw [normalizeException, hget]
            exact Dict.get_pop_self ..
          have hno (cause : Dict) : (normalizeException (left + 1) d).get "cause" ≠ .obj cause := by
            rw [hnone]
            exact Json.noConfusion
          rw [walkToRootCause_root _ hno]
          exact hno

theorem symbolicates_iff (rt : Runtime) {exception : Dict} {release : PyStr}
    (hplatform : call.envelope.get "platform" = .str (py "javascript"))
    (hexc : call.envelope.get "exception" = .obj exception)
    (hrelease : mapRelease call = some release) :
    symbolicates rt call = true ↔ ∃ out, symbolicateException rt call.maps (uuidStr call.orgId)
      (uuidStr call.projectId) release (normalizeException (maxCauseDepth - 1) exception) =
        .ok out := by
  have hlast : maxCauseDepth - 1 + 1 = maxCauseDepth := rfl
  rw [symbolicateException_isOk rt call release (normalizeException_root _ exception), symbolicates,
    hplatform, hrelease, hexc]
  simp only [decide_true, Bool.true_and, List.all_eq_true, List.mem_range]
  constructor
  · exact fun h k hk => h k (by omega)
  · exact fun h k hk => h k (by omega)

/-- Symbolication rewrites the chain of causes, or leaves the envelope as it was. -/
theorem symbolicateEnvelope_exception_eq (rt : Runtime) (files : Filesystem)
    (orgId projectId : PyStr) {envelope exception : Dict} {release : PyStr}
    (hplatform : envelope.get "platform" = .str (py "javascript"))
    (hexc : envelope.get "exception" = .obj exception) {c : CodePoint}
    (hrelease : envelope.get "release" = .str (c :: release)) :
    (symbolicateEnvelope rt files envelope orgId projectId).get "exception" =
      match symbolicateException rt files orgId projectId (c :: release) exception with
      | .ok out => .obj out
      | .error _ => .obj exception := by
  unfold symbolicateEnvelope
  rw [hplatform, hexc, hrelease]
  dsimp only
  rw [if_pos rfl]
  cases symbolicateException rt files orgId projectId (c :: release) exception with
  | ok out => exact Dict.get_set_self ..
  | error e => exact hexc

/-- Only a browser event with a release is symbolicated. -/
theorem symbolicateEnvelope_eq_self {files : Filesystem} {envelope : Dict} {orgId projectId : PyStr}
    (hno : ∀ c release, envelope.get "platform" = .str (py "javascript") →
      envelope.get "release" ≠ .str (c :: release)) :
    symbolicateEnvelope rt files envelope orgId projectId = envelope := by
  unfold symbolicateEnvelope
  split
  · next hplatform _ hrelease =>
      split_ifs with hjs
      · exact absurd hrelease (hno _ _ (hplatform.trans (congrArg Json.str hjs)))
      · rfl
  · rfl

theorem mapRelease_some {release : PyStr} (h : mapRelease call = some release) :
    ∃ c cs, call.envelope.get "release" = .str (c :: cs) ∧ release = c :: cs := by
  unfold mapRelease at h
  split at h
  · next c cs hget => exact ⟨c, cs, hget, (Option.some.inj h).symm⟩
  · cases h

/-- A browser event with a release. -/
def IsMapped (call : EventCall) : Prop :=
  call.envelope.get "platform" = .str (py "javascript") ∧ (mapRelease call).isSome = true

theorem symbolicates_of_not_mapped (rt : Runtime) (h : ¬ IsMapped call) :
    symbolicates rt call = false := by
  unfold symbolicates
  split
  · next platform release exc hplatform hrel _ =>
      have hjs : platform ≠ py "javascript" :=
        fun heq => h ⟨hplatform.trans (congrArg Json.str heq), by rw [hrel]; rfl⟩
      simp [hjs]
  · rfl

theorem symbolicated_of_not_mapped (rt : Runtime) (h : ¬ IsMapped call) :
    symbolicated rt call = capEnvelope call.envelope := by
  refine symbolicateEnvelope_eq_self fun c cs hplatform hrelease => h ⟨?_, ?_⟩
  · exact (capEnvelope_get _ (by decide)).symm.trans hplatform
  · rw [capEnvelope_get _ (by decide)] at hrelease
    rw [mapRelease, hrelease]
    rfl

/-- The chain of causes of an event that is symbolicated, and as normalisation left it otherwise. -/
theorem symbolicated_exception (rt : Runtime) {exception : Dict}
    (hexc : call.envelope.get "exception" = .obj exception) :
    (symbolicates rt call = true → ∃ release out, mapRelease call = some release ∧
      symbolicateException rt call.maps (uuidStr call.orgId) (uuidStr call.projectId) release
        (normalizeException (maxCauseDepth - 1) exception) = .ok out ∧
      (symbolicated rt call).get "exception" = .obj out) ∧
    (symbolicates rt call = false → (symbolicated rt call).get "exception" =
      .obj (normalizeException (maxCauseDepth - 1) exception)) := by
  have hnormexc := capEnvelope_exception call.envelope
  rw [hexc] at hnormexc
  by_cases hmapped : IsMapped call
  · obtain ⟨hplatform, hsome⟩ := hmapped
    obtain ⟨release, hrel⟩ := Option.isSome_iff_exists.mp hsome
    have hiff := symbolicates_iff rt hplatform hexc hrel
    obtain ⟨c, cs, hget, rfl⟩ := mapRelease_some hrel
    have hafter := symbolicateEnvelope_exception_eq rt call.maps (uuidStr call.orgId)
      (uuidStr call.projectId) ((capEnvelope_get _ (by decide)).trans hplatform) hnormexc
      ((capEnvelope_get _ (by decide)).trans hget)
    constructor
    · intro hs
      obtain ⟨out, hout⟩ := hiff.mp hs
      rw [hout] at hafter
      exact ⟨_, out, hrel, hout, hafter⟩
    · intro hs
      cases hout : symbolicateException rt call.maps (uuidStr call.orgId) (uuidStr call.projectId)
        (c :: cs) (normalizeException (maxCauseDepth - 1) exception) with
      | ok out =>
          rw [hiff.mpr ⟨out, hout⟩] at hs
          cases hs
      | error e =>
          rw [hout] at hafter
          exact hafter
  · rw [symbolicates_of_not_mapped rt hmapped, symbolicated_of_not_mapped rt hmapped]
    exact ⟨(by simp), fun _ => hnormexc⟩

end Chain

end Crashlens
