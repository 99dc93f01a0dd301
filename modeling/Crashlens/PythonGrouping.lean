import Crashlens.EventContract

/-!
# Which captured exceptions share an issue

The SDK follows the causes of an exception, the server walks along them to the root and hashes its
type and the last application frames. Neither the exceptions around the root nor messages, levels,
tags or breadcrumbs are hashed, and the hashed text can be read back: two captured exceptions get
one fingerprint exactly when their roots crash alike.
-/

namespace Crashlens

/-! ## Quoted strings can be read back -/

section Quoting

/-- The value of a hexadecimal digit in lower case. -/
def hexDigitValue (c : CodePoint) : ℕ := if c.val < 58 then c.val - 48 else c.val - 87

/-- The character that an escaped text starts with, and the text after it. -/
def unescape : PyStr → Option (CodePoint × PyStr)
  | [] => none
  | c :: rest =>
    if c.val = 0x5C then
      match rest with
      | d :: rest' =>
        if d.val = 0x6E then some (CodePoint.ofNat 0x0A, rest')
        else if d.val = 0x72 then some (CodePoint.ofNat 0x0D, rest')
        else if d.val = 0x74 then some (CodePoint.ofNat 0x09, rest')
        else if d.val = 0x66 then some (CodePoint.ofNat 0x0C, rest')
        else if d.val = 0x62 then some (CodePoint.ofNat 0x08, rest')
        else if d.val = 0x75 then
          some (CodePoint.ofNat ((rest'.take 4).foldl (fun n d => 16 * n + hexDigitValue d) 0),
            rest'.drop 4)
        else some (d, rest')
      | [] => none
    else some (c, rest)

theorem toHex_read : ∀ n < 32, (toHex 4 n).foldl (fun n d => 16 * n + hexDigitValue d) 0 = n := by
  decide

theorem CodePoint.eq_ofNat {c : CodePoint} {n : ℕ} (h : c.val = n) : c = CodePoint.ofNat n := by
  rw [← h]
  exact (Fin.ofNat_val_eq_self c).symm

theorem unescape_escape (c : CodePoint) (rest : PyStr) :
    unescape (Runtime.escape c ++ rest) = some (c, rest) := by
  unfold Runtime.escape
  split_ifs with hquote hslash hn hr ht hf hb hcontrol
  · rw [CodePoint.eq_ofNat hquote]
    rfl
  · rw [CodePoint.eq_ofNat hslash]
    rfl
  · rw [CodePoint.eq_ofNat hn]
    rfl
  · rw [CodePoint.eq_ofNat hr]
    rfl
  · rw [CodePoint.eq_ofNat ht]
    rfl
  · rw [CodePoint.eq_ofNat hf]
    rfl
  · rw [CodePoint.eq_ofNat hb]
    rfl
  · have hlength : (toHex 4 c.val).length = 4 := length_toHex 4 c.val
    have hread := toHex_read c.val (by omega)
    rw [List.append_assoc]
    change some (CodePoint.ofNat (((toHex 4 c.val ++ rest).take 4).foldl
      (fun n d => 16 * n + hexDigitValue d) 0), (toHex 4 c.val ++ rest).drop 4) = _
    rw [List.take_left' hlength, List.drop_left' hlength, hread, ← CodePoint.eq_ofNat rfl]
  · exact if_neg hslash

theorem escape_ne_nil (c : CodePoint) : Runtime.escape c ≠ [] := by
  intro hnil
  have hread := unescape_escape c []
  rw [hnil] at hread
  cases hread

theorem flatMap_escape_injective : ∀ {s t : PyStr},
    s.flatMap Runtime.escape = t.flatMap Runtime.escape → s = t
  | [], [], _ => rfl
  | [], d :: ds, h => by
    rw [List.flatMap_nil, List.flatMap_cons] at h
    exact absurd (List.append_eq_nil_iff.mp h.symm).1 (escape_ne_nil d)
  | c :: cs, [], h => by
    rw [List.flatMap_nil, List.flatMap_cons] at h
    exact absurd (List.append_eq_nil_iff.mp h).1 (escape_ne_nil c)
  | c :: cs, d :: ds, h => by
    rw [List.flatMap_cons, List.flatMap_cons] at h
    have hread := congrArg unescape h
    rw [unescape_escape, unescape_escape] at hread
    obtain rfl : c = d := congrArg Prod.fst (Option.some.inj hread)
    rw [flatMap_escape_injective (List.append_cancel_left h)]

theorem quote_injective {s t : PyStr} (h : Runtime.quote s = Runtime.quote t) : s = t := by
  have hbody := List.append_cancel_left (List.append_cancel_right h)
  exact flatMap_escape_injective hbody

theorem quote_encodable_iff {s : PyStr} : (Runtime.quote s).Encodable ↔ s.Encodable := by
  refine ⟨fun h c hc => ?_, quote_encodable⟩
  have hescape : (Runtime.escape c).Encodable := by
    intro d hd
    refine h d (List.mem_append_left _ (List.mem_append_right _ ?_))
    exact List.mem_flatMap.mpr ⟨c, hc, hd⟩
  unfold Runtime.escape at hescape
  split_ifs at hescape with hquote hslash hn hr ht hf hb hcontrol
  · rw [CodePoint.eq_ofNat hquote]
    decide
  · rw [CodePoint.eq_ofNat hslash]
    decide
  · rw [CodePoint.eq_ofNat hn]
    decide
  · rw [CodePoint.eq_ofNat hr]
    decide
  · rw [CodePoint.eq_ofNat ht]
    decide
  · rw [CodePoint.eq_ofNat hf]
    decide
  · rw [CodePoint.eq_ofNat hb]
    decide
  · simp only [CodePoint.isSurrogate, Bool.and_eq_false_iff, decide_eq_false_iff_not]
    omega
  · exact hescape c List.mem_cons_self

end Quoting

namespace Python

/-! ## What is hashed of a captured exception -/

section Root

variable {ε : Type} [DecidableEq ε]

/-- Where the causes lead in so many steps. -/
def rootOf (graph : Graph ε) : ℕ → ε → ε
  | 0, exc => exc
  | left + 1, exc =>
    match followed graph exc with
    | some cause => rootOf graph left cause
    | none => exc

/-- What the fingerprint reads of an entry of a traceback. -/
def entryView (host : Host) (prefixes : Option (List PyStr)) (entry : TraceEntry) : View where
  filename := .str (truncateString entry.filename filenameMax)
  function := .str (truncateString entry.name functionMax)
  inApp := isInApp host prefixes entry.filename entry.module

/-- What tells crashes apart: the type of the root and the names of its last application frames. -/
structure Crash where
  type : PyStr
  frames : List (PyStr × PyStr)
deriving DecidableEq

def Crash.of (host : Host) (prefixes : Option (List PyStr)) (exception : PyException ε) : Crash :=
  ⟨exception.typeName, (selectLast
    (fun entry => isInApp host prefixes entry.filename entry.module)
    (lastN maxFrames exception.traceback)).map fun entry =>
      (truncateString entry.filename filenameMax, truncateString entry.name functionMax)⟩

def crashOf (graph : Graph ε) (host : Host) (prefixes : Option (List PyStr)) (exc : ε) : Crash :=
  .of host prefixes (graph (rootOf graph (maxCauseDepth - 1) exc))

def Crash.signature (crash : Crash) : Json :=
  frameSignature (.str (py "python")) (.str crash.type)
    (crash.frames.map fun f => ⟨.str f.1, .str f.2, true⟩)

/-- No name has a lone surrogate. -/
structure Crash.Encodable (crash : Crash) : Prop where
  type : crash.type.Encodable
  frames : ∀ f ∈ crash.frames, PyStr.Encodable f.1 ∧ PyStr.Encodable f.2

variable (graph : Graph ε) (host : Host) (prefixes : Option (List PyStr))

theorem frameView_buildFrame (entry : TraceEntry) :
    frameView (.obj (buildFrame host prefixes entry)) = entryView host prefixes entry := by
  have hget (key : String) (rule : Rule) (hmem : (py key, rule) ∈ frameRules)
      (hnull : rule .null = none) : Dict.get (Assoc.reviseAll frameRules
        (buildFrame host prefixes entry)) key =
      (rule ((buildFrame host prefixes entry).get key)).getD
        ((buildFrame host prefixes entry).get key) :=
    get_reviseAll (by decide) hmem hnull _
  have hfilename := hget "filename" (truncateRule filenameMax) (by simp [frameRules]) rfl
  have hfunction := hget "function" (truncateRule functionMax) (by simp [frameRules]) rfl
  have hinApp : isAppFrame (.obj (buildFrame host prefixes entry)) =
      isInApp host prefixes entry.filename entry.module := rfl
  have hview : (frameView (.obj (buildFrame host prefixes entry))).inApp =
      isInApp host prefixes entry.filename entry.module := by rw [frameView_inApp, hinApp]
  rw [frameView, normalizeFrame_obj] at hview ⊢
  dsimp only [viewOf] at hview ⊢
  rw [hfilename, hfunction, hview]
  rfl

/-- The walk along the causes of a built exception ends at the root the graph leads to. -/
theorem walkToRootCause_buildException (left : ℕ) (exc : ε) : ∃ rest,
    walkToRootCause left (buildException graph host prefixes left exc) =
      exceptionFields graph host prefixes (rootOf graph left exc) ++ rest := by
  induction left generalizing exc with
  | zero => exact ⟨[], (List.append_nil _).symm⟩
  | succ left ih =>
      rw [buildException, rootOf]
      cases hcause : followed graph exc with
      | none =>
          refine ⟨[], ?_⟩
          have hroot (cause : Dict) :
              (exceptionFields graph host prefixes exc).get "cause" ≠ .obj cause := by
            intro h
            cases h
          rw [walkToRootCause_root _ hroot]
          exact (List.append_nil _).symm
      | some cause =>
          have hget : Dict.get (exceptionFields graph host prefixes exc ++
              [(py "cause", .obj (buildException graph host prefixes left cause))]) "cause" =
                .obj (buildException graph host prefixes left cause) := rfl
          dsimp only
          rw [walkToRootCause_cause left hget]
          exact ih cause

theorem views_buildFrames (tb : List TraceEntry) :
    (((buildFrames host prefixes tb).map normalizeFrame).filterMap asDict).map viewOf =
      (lastN maxFrames tb).map (entryView host prefixes) := by
  rw [views_normalizeFrame, buildFrames_eq]
  have hobj : ((lastN maxFrames tb).map fun entry =>
      Json.obj (buildFrame host prefixes entry)).filter Json.isObj =
        (lastN maxFrames tb).map fun entry => Json.obj (buildFrame host prefixes entry) := by
    refine List.filter_eq_self.mpr fun frame hframe => ?_
    obtain ⟨entry, -, rfl⟩ := List.mem_map.mp hframe
    rfl
  rw [hobj, List.map_map]
  exact List.map_congr_left fun entry _ => frameView_buildFrame host prefixes entry

omit [DecidableEq ε] in
theorem frameSignature_congr {platform type : Json} {views views' : List View}
    (h : views.map (fun v => (v.filename, v.function)) =
      views'.map fun v => (v.filename, v.function)) :
    frameSignature platform type views = frameSignature platform type views' := by
  have hrows (views : List View) : (views.map fun v => Json.arr [v.filename, v.function]) =
      (views.map fun v => (v.filename, v.function)).map fun f => .arr [f.1, f.2] := by
    rw [List.map_map]
    rfl
  rw [frameSignature, frameSignature, hrows, hrows, h]

omit [DecidableEq ε] in
theorem rootSignature_exceptionFields (exc : ε) (rest : Dict) :
    rootSignature (.str (py "python")) (exceptionFields graph host prefixes exc ++ rest) =
      .ok (Crash.of host prefixes (graph exc)).signature := by
  obtain ⟨htype, hst⟩ := exceptionFields_get graph host prefixes exc rest
  generalize exceptionFields graph host prefixes exc ++ rest = root at htype hst
  have hframes : Dict.get [(py "frames",
      Json.arr (buildFrames host prefixes (graph exc).traceback))] "frames" =
        .arr (buildFrames host prefixes (graph exc).traceback) := rfl
  have hkept : lastN Crashlens.maxFrames (buildFrames host prefixes (graph exc).traceback) =
      buildFrames host prefixes (graph exc).traceback :=
    lastN_of_le (length_buildFrames host prefixes _)
  have hcap : capFrames root = root.set "stacktrace" (.obj (Dict.set
      [(py "frames", Json.arr (buildFrames host prefixes (graph exc).traceback))] "frames"
      (.arr ((buildFrames host prefixes (graph exc).traceback).map normalizeFrame)))) := by
    rw [capFrames, hst]
    dsimp only
    rw [hframes]
    dsimp only
    rw [hkept]
  have hne : py "type" ≠ py "stacktrace" := by decide
  rw [rootSignature, hcap, rootFrames_of_list (Dict.get_set_self ..) (Dict.get_set_self ..)]
  simp only [bind, Except.bind, pure, Except.pure]
  rw [exceptionSignature_eq_frameSignature, Dict.get_set_ne root hne, htype, views_buildFrames,
    selectLast_map, Crash.signature, Crash.of]
  refine congrArg Except.ok (frameSignature_congr ?_)
  rw [List.map_map, List.map_map, List.map_map]
  rfl

end Root

/-! ## Crashes and their texts -/

section Texts

variable {rt : Runtime}

def frameText (f : PyStr × PyStr) : PyStr :=
  py "[" ++ Runtime.quote f.1 ++ py "," ++ Runtime.quote f.2 ++ py "]"

theorem dumps_signature (crash : Crash) : rt.dumps crash.signature =
    py "\x7b\"frames\":" ++ (py "[" ++ Runtime.joinComma (crash.frames.map frameText) ++ py "]" ++
      (py ",\"platform\":\"python\",\"type\":" ++ (Runtime.quote crash.type ++
        py ",\"v\":1\x7d"))) := by
  have htexts : (crash.frames.map fun f => (⟨.str f.1, .str f.2, true⟩ : View)).map
      (View.text rt) = crash.frames.map frameText := by
    rw [List.map_map]
    rfl
  have hbefore : py "\x7b\"frames\":[" = py "\x7b\"frames\":" ++ py "[" := rfl
  have hafter : py "]" ++ py ",\"platform\":\"python\",\"type\":" = py "],\"platform\":" ++
      (rt.dumps (.str (py "python")) ++ py ",\"type\":") := rfl
  rw [Crash.signature, dumps_frameSignature, htexts, hbefore]
  simp only [List.append_assoc]
  rw [← List.append_assoc (py "]"), hafter]
  simp only [List.append_assoc]
  rfl

theorem frameText_complete (f : PyStr × PyStr) : Complete (frameText f) ∧ frameText f ≠ [] := by
  have hcomma : Enclosed (py ",") := fun _ => rfl
  have hfile := (complete_quote f.1).enclosed
  have hfun := (complete_quote f.2).enclosed
  have hbracket := complete_bracket (hfile.append (hcomma.append hfun))
  simp only [← List.append_assoc] at hbracket
  refine ⟨hbracket, ?_⟩
  simp [frameText, py]

theorem frameText_injective {f g : PyStr × PyStr} (h : frameText f = frameText g) : f = g := by
  simp only [frameText, List.append_assoc] at h
  have hdelimited (s : PyStr) : Delimited (py "," ++ (Runtime.quote s ++ py "]")) := rfl
  obtain ⟨hfile, hrest⟩ := (complete_quote f.1).append_inj (complete_quote g.1) (hdelimited f.2)
    (hdelimited g.2) (List.append_cancel_left h)
  have hfun := List.append_cancel_right (List.append_cancel_left hrest)
  exact Prod.ext (quote_injective hfile) (quote_injective hfun)

/-- The hashed text tells what crashed. -/
theorem signature_injective {crash crash' : Crash}
    (h : rt.dumps crash.signature = rt.dumps crash'.signature) : crash = crash' := by
  rw [dumps_signature, dumps_signature] at h
  have hlist (crash : Crash) :
      Complete (py "[" ++ Runtime.joinComma (crash.frames.map frameText) ++ py "]") := by
    refine complete_bracket (enclosed_joinComma fun s hs => ?_)
    obtain ⟨f, -, rfl⟩ := List.mem_map.mp hs
    exact (frameText_complete f).1
  have hdelimited (crash : Crash) : Delimited (py ",\"platform\":\"python\",\"type\":" ++
      (Runtime.quote crash.type ++ py ",\"v\":1\x7d")) := rfl
  obtain ⟨hframes, hrest⟩ := (hlist crash).append_inj (hlist crash') (hdelimited crash)
    (hdelimited crash') (List.append_cancel_left h)
  have htype := quote_injective (List.append_cancel_right (List.append_cancel_left hrest))
  have htexts : crash.frames.map frameText = crash'.frames.map frameText := by
    refine joinComma_injective (fun s hs => ?_) (fun s hs => ?_)
      (List.append_cancel_left (List.append_cancel_right hframes))
    · obtain ⟨f, -, rfl⟩ := List.mem_map.mp hs
      exact frameText_complete f
    · obtain ⟨f, -, rfl⟩ := List.mem_map.mp hs
      exact frameText_complete f
  have hsame := List.map_injective_iff.mpr (fun _ _ => frameText_injective) htexts
  cases crash
  cases crash'
  cases htype
  cases hsame
  rfl

theorem signature_encodable_iff (crash : Crash) :
    (rt.dumps crash.signature).Encodable ↔ crash.Encodable := by
  rw [dumps_signature]
  simp only [encodable_append_iff, joinComma_encodable_iff, quote_encodable_iff,
    List.forall_mem_map, frameText]
  constructor
  · rintro ⟨-, ⟨⟨-, hframes⟩, -⟩, -, htype, -⟩
    exact ⟨htype, fun f hf => ⟨(hframes f hf).1.1.1.2, (hframes f hf).1.2⟩⟩
  · rintro ⟨htype, hframes⟩
    exact ⟨py_encodable _, ⟨⟨py_encodable _, fun f hf => ⟨⟨⟨⟨py_encodable _, (hframes f hf).1⟩,
      py_encodable _⟩, (hframes f hf).2⟩, py_encodable _⟩⟩, py_encodable _⟩, py_encodable _, htype,
      py_encodable _⟩

end Texts

/-! ## Grouping -/

section Grouping

variable {ε ε' : Type} [DecidableEq ε] [DecidableEq ε']

/-- The call handles an event that was captured of the exception. -/
def Reports (client : Client) (site : CaptureSite ε) (exc : ε) (call : EventCall) : Prop :=
  ∃ handled c draft, Capture.draft handled c = some draft ∧ draft.excInfo = some exc ∧
    call.envelope = buildEvent client site draft

/-- The root the server walks to is the one the graph of exceptions leads to. -/
theorem hashInput_of_reports (rt : Runtime) {client : Client} {site : CaptureSite ε} {exc : ε}
    {call : EventCall} (h : Reports client site exc call) : hashInput rt call =
      utf8Encode (rt.dumps
        (crashOf site.graph site.host client.inAppModulePrefixes exc).signature) := by
  obtain ⟨handled, c, draft, -, hexc, henvelope⟩ := h
  have hexception : (buildEvent client site draft).get "exception" =
      .obj (buildException site.graph site.host client.inAppModulePrefixes
        (maxCauseDepth - 1) exc) := by
    rw [buildEvent_exception, hexc]
    rfl
  obtain ⟨-, -, hplatform, -⟩ := buildEvent_required client site draft
  obtain ⟨rest, hroot⟩ := walkToRootCause_buildException site.graph site.host
    client.inAppModulePrefixes (maxCauseDepth - 1) exc
  have hdeciding : decidingException (buildException site.graph site.host
      client.inAppModulePrefixes (maxCauseDepth - 1) exc) = exceptionFields site.graph site.host
        client.inAppModulePrefixes (rootOf site.graph (maxCauseDepth - 1) exc) ++ rest :=
    (walkToRootCause_deciding _).symm.trans hroot
  have hplain : symbolicated rt call = capEnvelope call.envelope := by
    refine symbolicated_of_not_mapped rt fun hmapped => ?_
    have hjs := hmapped.1
    rw [henvelope, hplatform] at hjs
    exact absurd (Json.str.inj hjs) (by decide)
  have hsignature : fingerprintSignature rt (symbolicated rt call) =
      .ok (crashOf site.graph site.host client.inAppModulePrefixes exc).signature := by
    rw [hplain, henvelope, fingerprintSignature_normalized rt hexception, hdeciding, hplatform]
    exact rootSignature_exceptionFields ..
  rw [hashInput, hsignature]
  simp only [bind, Except.bind]

/-- Two captured exceptions whose events can be copied are grouped together exactly when what their
causes lead to crashed alike: the exceptions around it, the messages, levels and scopes do not
count. -/
theorem captured_exceptions_share_issue_iff (rt : Runtime) {client client' : Client}
    {site : CaptureSite ε} {site' : CaptureSite ε'} {exc : ε} {exc' : ε'} {call call' : EventCall}
    (h : Reports client site exc call) (h' : Reports client' site' exc' call')
    (hapart : CollisionFree rt call call') :
    SameFingerprint rt call call' ↔
      crashOf site.graph site.host client.inAppModulePrefixes exc =
        crashOf site'.graph site'.host client'.inAppModulePrefixes exc' ∧
      (crashOf site.graph site.host client.inAppModulePrefixes exc).Encodable ∧
      Copyable rt call.envelope ∧ Copyable rt call'.envelope := by
  have hinput := hashInput_of_reports rt h
  have hinput' := hashInput_of_reports rt h'
  constructor
  · rintro ⟨fingerprint, hfp, hfp'⟩
    obtain ⟨hcopy, x, hx, hfpx⟩ := fingerprintOf_ok.mp hfp
    obtain ⟨hcopy', y, hy, hfpy⟩ := fingerprintOf_ok.mp hfp'
    obtain rfl := hapart x y hx hy (hexdigest_injective (hfpx.symm.trans hfpy))
    rw [hinput] at hx
    rw [hinput'] at hy
    exact ⟨signature_injective (utf8Encode_injective hx hy),
      (signature_encodable_iff _).mp (utf8Encode_isOk_iff.mp ⟨x, hx⟩), hcopy, hcopy'⟩
  · rintro ⟨hsame, hencodable, hcopy, hcopy'⟩
    have htext : (rt.dumps (crashOf site.graph site.host client.inAppModulePrefixes
        exc).signature).Encodable := (signature_encodable_iff _).mpr hencodable
    obtain ⟨x, hx⟩ := utf8Encode_isOk_iff.mpr htext
    have hx' := hx
    rw [hsame] at hx'
    exact ⟨rt.hexdigest x, fingerprintOf_ok.mpr ⟨hcopy, x, hinput.trans hx, rfl⟩,
      fingerprintOf_ok.mpr ⟨hcopy', x, hinput'.trans hx', rfl⟩⟩

end Grouping

section Wrapped

/-- An exception raised on its own, and one that was raised from it. -/
def wrapped : Graph Bool := fun exc =>
  ⟨if exc then py "KeyError" else py "OrderError", none, [traceEntry],
    if exc then none else some true, none, false⟩

def wrappedCall (exc : Bool) (level : PyStr) : EventCall where
  envelope := buildEvent sampleClient ⟨plainHost, wrapped, .empty, 1, 0⟩
    ⟨level, none, some exc, none⟩
  orgId := 1
  projectId := 2
  seenAt := 0
  maps := fun _ => none

theorem wrapped_exception_shares_issue : SameFingerprint epochRuntime
    (wrappedCall true (py "error")) (wrappedCall false (py "fatal")) := by
  have h (exc : Bool) (level : PyStr) : Reports sampleClient
      ⟨plainHost, wrapped, .empty, 1, 0⟩ exc (wrappedCall exc level) :=
    ⟨none, .exception (.exception exc) level none none, _, rfl, rfl, rfl⟩
  refine (captured_exceptions_share_issue_iff epochRuntime (h true (py "error"))
    (h false (py "fatal")) fun x y hx hy _ => ?_).mpr ⟨by decide, ?_, by decide +kernel,
      by decide +kernel⟩
  · rw [hashInput_of_reports epochRuntime (h true (py "error"))] at hx
    rw [hashInput_of_reports epochRuntime (h false (py "fatal"))] at hy
    exact Except.ok.inj (hx.symm.trans hy)
  · refine ⟨py_encodable _, fun f hf => ?_⟩
    obtain rfl := List.mem_singleton.mp hf
    exact ⟨py_encodable _, py_encodable _⟩

end Wrapped

end Python

end Crashlens
