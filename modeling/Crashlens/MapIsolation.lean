import Crashlens.MapBasename
import Crashlens.SymbolicatedPositions

/-!
# One bad map and the frames of the others

Symbolication of an envelope stops at the first error it meets, and the handler around one map
catches `OSError` and `ValueError` only. So a map that fails in another way, or a name that cannot
be encoded, leaves the frames of all the other maps as they were too.
-/

namespace Crashlens

/-! ## Maps that fail otherwise -/

def Json.iterable : Json → Bool
  | .arr _ | .obj _ | .str _ => true
  | _ => false

/-- A map of the third version in which a number or `true` stands where a list belongs. -/
def NotIterated (raw : Json) : Prop :=
  ∃ d mappings, raw = .obj d ∧ (Dict.get d "version").equalsThree = true ∧
    Dict.get d "mappings" = .str mappings ∧ ∃ key ∈ ["sources", "sourcesContent", "names"],
      (Dict.get d key).truthy = true ∧ (Dict.get d key).iterable = false

section Load

theorem orEmptyList_cases (v : Json) :
    (∃ items, orEmptyList v = .ok items) ∧ ¬ (v.truthy = true ∧ v.iterable = false) ∨
      orEmptyList v = .error .typeError ∧ v.truthy = true ∧ v.iterable = false := by
  unfold orEmptyList
  split_ifs with htruthy
  · cases v with
    | arr items => exact .inl ⟨⟨_, rfl⟩, by simp [Json.iterable]⟩
    | obj fields => exact .inl ⟨⟨_, rfl⟩, by simp [Json.iterable]⟩
    | str s => exact .inl ⟨⟨_, rfl⟩, by simp [Json.iterable]⟩
    | _ => exact .inr ⟨rfl, htruthy, rfl⟩
  · exact .inl ⟨⟨_, rfl⟩, fun h => htruthy h.1⟩

theorem decodeVlq_error {s : PyStr} {e : PyError} (h : decodeVlq s = .error e) :
    e = .valueError := by
  obtain ⟨herror, -⟩ | ⟨⟨values, hok⟩, -⟩ := decodeVlq_cases s
  · cases herror.symm.trans h
    rfl
  · cases hok.symm.trans h

theorem readSegments_error {parts : List PyStr} {cur : MapCursor} {genCol : ℤ}
    {row : List Segment} {e : PyError} (h : readSegments parts cur genCol row = .error e) :
    e = .valueError := by
  induction parts generalizing cur genCol row with
  | nil => cases h
  | cons part rest ih =>
      cases part with
      | nil => exact ih h
      | cons c cs =>
          rw [readSegments] at h
          · cases hfields : decodeVlq (c :: cs) with
            | error e' =>
                rw [hfields] at h
                cases h
                exact decodeVlq_error hfields
            | ok fields =>
                rw [hfields] at h
                exact ih h
          · exact List.cons_ne_nil c cs

theorem readLines_error {lines : List PyStr} {genLine : ℤ} {cur : MapCursor} {e : PyError}
    (h : readLines lines genLine cur = .error e) : e = .valueError := by
  induction lines generalizing genLine cur with
  | nil => cases h
  | cons line rest ih =>
      cases line with
      | nil => exact ih h
      | cons c cs =>
          rw [readLines] at h
          · cases hrow : readSegments (splitOn comma (c :: cs)) cur 0 [] with
            | error e' =>
                rw [hrow] at h
                cases h
                exact readSegments_error hrow
            | ok found =>
                rw [hrow] at h
                cases hlines : readLines rest (genLine + 1) found.1 with
                | error e' =>
                    simp only [hlines, bind, Except.bind] at h
                    cases h
                    exact ih hlines
                | ok lines =>
                    simp only [hlines, bind, Except.bind, pure, Except.pure] at h
                    cases h
          · exact List.cons_ne_nil c cs

theorem notIterated_iff {d : Dict} {mappings : PyStr}
    (hversion : (Dict.get d "version").equalsThree = true)
    (hmappings : Dict.get d "mappings" = .str mappings) :
    NotIterated (.obj d) ↔ ∃ key ∈ ["sources", "sourcesContent", "names"],
      (Dict.get d key).truthy = true ∧ (Dict.get d key).iterable = false := by
  constructor
  · rintro ⟨d', _, heq, -, -, hkey⟩
    cases heq
    exact hkey
  · exact fun hkey => ⟨d, mappings, rfl, hversion, hmappings, hkey⟩

/-- A map is parsed, or malformed, or it has something that is no list where one belongs. -/
theorem parseSourceMap_cases (raw : Json) :
    ((∃ m, parseSourceMap raw = .ok m) ∨ parseSourceMap raw = .error .valueError) ∧
        ¬ NotIterated raw ∨
      parseSourceMap raw = .error .typeError ∧ NotIterated raw := by
  cases raw with
  | obj d =>
      rw [parseSourceMap]
      cases hversion : (Dict.get d "version").equalsThree with
      | false =>
          refine .inl ⟨.inr rfl, ?_⟩
          rintro ⟨d', mappings, heq, hthree, -⟩
          cases heq
          rw [hversion] at hthree
          cases hthree
      | true =>
          cases hmappings : Dict.get d "mappings" with
          | str mappings =>
              rw [notIterated_iff hversion hmappings]
              simp only [bind, Except.bind, pure, Except.pure, Bool.not_true, Bool.false_eq_true,
                if_false, List.mem_cons, List.not_mem_nil, or_false, exists_eq_or_imp,
                exists_eq_left]
              -- The three lists are read in this order, and the first that is none raises.
              obtain ⟨⟨sources, hs⟩, hsources⟩ | ⟨hs, hsources⟩ :=
                orEmptyList_cases (Dict.get d "sources")
              · obtain ⟨⟨contents, hc⟩, hcontents⟩ | ⟨hc, hcontents⟩ :=
                  orEmptyList_cases (Dict.get d "sourcesContent")
                · obtain ⟨⟨names, hn⟩, hnames⟩ | ⟨hn, hnames⟩ :=
                    orEmptyList_cases (Dict.get d "names")
                  · refine .inl ⟨?_, fun h => h.elim hsources fun h => h.elim hcontents hnames⟩
                    rw [hs, hc, hn]
                    cases hlines : readLines (splitOn semicolon mappings) 0 {} with
                    | error e =>
                        cases readLines_error hlines
                        exact .inr rfl
                    | ok lines => exact .inl ⟨_, rfl⟩
                  · rw [hs, hc, hn]
                    exact .inr ⟨rfl, .inr (.inr hnames)⟩
                · rw [hs, hc]
                  exact .inr ⟨rfl, .inr (.inl hcontents)⟩
              · rw [hs]
                exact .inr ⟨rfl, .inl hsources⟩
          | _ =>
              refine .inl ⟨.inr rfl, ?_⟩
              rintro ⟨d', mappings, heq, -, hstr, -⟩
              cases heq
              cases hmappings.symm.trans hstr
  | _ =>
      refine .inl ⟨.inr rfl, ?_⟩
      rintro ⟨d', mappings, heq, -⟩
      cases heq

variable (rt : Runtime) (files : Filesystem)

/-- The path cannot be encoded, or what is there fails otherwise than a malformed map does. -/
def MapRaises (path : Path) : Prop :=
  path.all encodableName = false ∨ ∃ bytes, files path = some bytes ∧
    ((∃ e, rt.jsonLoads bytes = .error e ∧ e ≠ .valueError) ∨
      ∃ raw, rt.jsonLoads bytes = .ok raw ∧ NotIterated raw)

variable {rt files}

theorem loadSourceMap_isOk {path : Path} :
    (∃ found, loadSourceMap rt files path = .ok found) ↔ ¬ MapRaises rt files path := by
  unfold loadSourceMap MapRaises
  cases path.all encodableName with
  | false => simp
  | true =>
      cases files path with
      | none => simp
      | some bytes =>
          cases hjson : rt.jsonLoads bytes with
          | error e =>
              cases e with
              | valueError => simp [hjson, bind, Except.bind]
              | _ => simp [hjson, bind, Except.bind]
          | ok raw =>
              simp only [hjson, bind, Except.bind, Bool.not_true, Bool.false_eq_true, if_false]
              obtain ⟨⟨m, hm⟩ | hm, hraw⟩ | ⟨hm, hraw⟩ := parseSourceMap_cases raw
              · simp [hjson, hm, hraw]
              · simp [hjson, hm, hraw]
              · simp [hjson, hm, hraw]

end Load

/-! ## One frame on its own -/

section Frame

variable (rt : Runtime) (files : Filesystem)

/-- Nothing is there but these files. -/
def onlyFiles (paths : List Path) : Filesystem := fun path =>
  if path ∈ paths then files path else none

/-- What symbolication makes of a frame whose map is the only one; an error leaves it as it was. -/
def symbolicatedAlone (releaseDir : Except PyError Path) (frame : Json) : Json :=
  match releaseDir with
  | .ok dir =>
    match symbolicateStackFrame rt (onlyFiles files (mapPaths dir frame)) dir frame with
    | .ok out => out
    | .error _ => frame
  | .error _ => frame

/-- A file that is tried for the frame raises. -/
def FrameRaises (dir : Path) (frame : Json) : Prop :=
  ∃ path ∈ mapPaths dir frame, MapRaises rt files path

/-- The map of the frame has nothing for its position but what the frame has already. -/
def NothingToRewrite (dir : Path) (frame : Json) : Prop :=
  ∀ (d : Dict) (m : SourceMap) (seg : Segment) (source : PyStr), frame = .obj d →
    ∀ path ∈ mapPaths dir frame, loadSourceMap rt files path = .ok (some m) →
      m.segmentAt d = some (seg, source) → Carries d m seg source

/-- The two are objects with the same fields, or the same. -/
def SameFrame : Json → Json → Prop
  | .obj d, .obj d' => Dict.Same d d'
  | a, b => a = b

variable {rt files}

theorem sameFrame_refl (frame : Json) : SameFrame frame frame := by
  cases frame with
  | obj d => exact fun _ => rfl
  | _ => rfl

theorem sameFrame_comm {a b : Json} : SameFrame a b ↔ SameFrame b a := by
  have hsymm {a b : Json} (h : SameFrame a b) : SameFrame b a := by
    unfold SameFrame at h ⊢
    split at h
    · exact fun k => (h k).symm
    · next hno =>
        split
        · next d d' => exact absurd rfl (hno d' d rfl)
        · exact h.symm
  exact ⟨hsymm, hsymm⟩

theorem symbolicateStackFrame_onlyFiles (dir : Path) (frame : Json) :
    symbolicateStackFrame rt (onlyFiles files (mapPaths dir frame)) dir frame =
      symbolicateStackFrame rt files dir frame :=
  symbolicateStackFrame_congr fun _ hpath => if_pos hpath

theorem symbolicatedAlone_ok {dir : Path} {frame out : Json}
    (h : symbolicateStackFrame rt files dir frame = .ok out) :
    symbolicatedAlone rt files (.ok dir) frame = out := by
  rw [symbolicatedAlone, symbolicateStackFrame_onlyFiles, h]

theorem symbolicatedAlone_error {dir : Path} {frame : Json} {e : PyError}
    (h : symbolicateStackFrame rt files dir frame = .error e) :
    symbolicatedAlone rt files (.ok dir) frame = frame := by
  rw [symbolicatedAlone, symbolicateStackFrame_onlyFiles, h]

/-- Just one file is tried for a basename. -/
theorem mapCandidates_single (basename : PyStr) : ∃ c, mapCandidates basename = [c] := by
  unfold mapCandidates
  split_ifs
  · exact ⟨_, rfl⟩
  · exact ⟨_, rfl⟩

theorem firstMap_single (dir : Path) (c : PyStr) :
    firstMap rt files dir [c] = loadSourceMap rt files (dir ++ [c]) := by
  rw [firstMap]
  cases loadSourceMap rt files (dir ++ [c]) with
  | error e => rfl
  | ok found =>
      cases found with
      | none => rfl
      | some m => rfl

/-- A frame names no map and is left alone, or it is rewritten from the one file it names. -/
theorem symbolicateStackFrame_eq (rt : Runtime) (files : Filesystem) (dir : Path) (frame : Json) :
    mapPaths dir frame = [] ∧ symbolicateStackFrame rt files dir frame = .ok frame ∨
      ∃ d path, frame = .obj d ∧ mapPaths dir frame = [path] ∧
        symbolicateStackFrame rt files dir frame = (loadSourceMap rt files path).map fun found =>
          match found with
          | some m => .obj (symbolicateFrame d m)
          | none => frame := by
  cases frame with
  | obj d =>
      rw [mapPaths, symbolicateStackFrame]
      cases basenameFromFrameFilename (Dict.get d "filename") with
      | none => exact .inl ⟨rfl, rfl⟩
      | some basename =>
          obtain ⟨c, hc⟩ := mapCandidates_single basename
          dsimp only
          rw [hc, firstMap_single]
          refine .inr ⟨d, dir ++ [c], rfl, rfl, ?_⟩
          cases loadSourceMap rt files (dir ++ [c]) with
          | error e => rfl
          | ok found =>
              cases found with
              | none => rfl
              | some m => rfl
  | _ => exact .inl ⟨rfl, rfl⟩

theorem symbolicateStackFrame_isOk_iff {dir : Path} {frame : Json} :
    (∃ out, symbolicateStackFrame rt files dir frame = .ok out) ↔
      ¬ FrameRaises rt files dir frame := by
  unfold FrameRaises
  obtain ⟨hnone, hout⟩ | ⟨d, path, -, hpath, hout⟩ :=
    symbolicateStackFrame_eq rt files dir frame
  · rw [hnone, hout]
    simp
  · rw [hpath, hout]
    simp only [List.mem_singleton, exists_eq_left]
    rw [← loadSourceMap_isOk]
    cases loadSourceMap rt files path with
    | error e => simp [Except.map]
    | ok found => simp [Except.map]

theorem sameFrame_symbolicateFrame_iff (d : Dict) (m : SourceMap) :
    (symbolicateFrame d m).Same d ↔
      ∀ seg source, m.segmentAt d = some (seg, source) → Carries d m seg source := by
  cases hseg : m.segmentAt d with
  | none =>
      rw [symbolicateFrame_none hseg]
      exact iff_of_true (fun _ => rfl) fun _ _ h => by cases h
  | some found =>
      obtain ⟨seg, source⟩ := found
      rw [symbolicateFrame_some hseg, rewrite_eq_setAll,
        same_setAll_iff (nodup_writes d m seg source)]
      constructor
      · intro h seg' source' heq
        cases heq
        exact h
      · exact fun h => h seg source rfl

theorem sameFrame_alone_iff {dir : Path} {frame : Json} :
    SameFrame (symbolicatedAlone rt files (.ok dir) frame) frame ↔
      NothingToRewrite rt files dir frame := by
  unfold NothingToRewrite
  obtain ⟨hnone, hout⟩ | ⟨d, path, rfl, hpath, hout⟩ :=
    symbolicateStackFrame_eq rt files dir frame
  · rw [symbolicatedAlone_ok hout, hnone]
    exact iff_of_true (sameFrame_refl frame) fun _ _ _ _ _ _ h => by cases h
  · rw [hpath]
    cases hload : loadSourceMap rt files path with
    | error e =>
        rw [hload] at hout
        rw [symbolicatedAlone_error hout]
        refine iff_of_true (sameFrame_refl _) fun _ _ _ _ _ path' hpath' h => ?_
        rw [List.mem_singleton.mp hpath', hload] at h
        cases h
    | ok found =>
        rw [hload] at hout
        rw [symbolicatedAlone_ok hout]
        cases found with
        | none =>
            refine iff_of_true (sameFrame_refl _) fun _ _ _ _ _ path' hpath' h => ?_
            rw [List.mem_singleton.mp hpath', hload] at h
            cases h
        | some m =>
            refine (sameFrame_symbolicateFrame_iff d m).trans ⟨?_, ?_⟩
            · intro h d' m' seg source heq path' hpath' hload'
              rw [List.mem_singleton.mp hpath', hload] at hload'
              cases hload'
              cases heq
              exact h seg source
            · exact fun h seg source hseg =>
                h d m seg source rfl path (List.mem_singleton_self path) hload hseg

end Frame

/-! ## The frames of the chain -/

section Chain

variable (rt : Runtime) (files : Filesystem)

/-- The frames of each exception of the chain. -/
def chainFrames (envelope : Dict) : List (List Json) :=
  match envelope.get "exception" with
  | .obj exception => (causeChain exception).map frameList
  | _ => []

/-- Each frame is what symbolication with its own map makes of it. -/
def FramesIsolated (orgId projectId release : PyStr) (envelope out : Dict) : Prop :=
  List.Forall₂ (List.Forall₂ SameFrame) (chainFrames out) ((chainFrames envelope).map
    (List.map (symbolicatedAlone rt files (releaseMapsDir orgId projectId release))))

variable {rt files} {orgId projectId release : PyStr}

theorem frameList_symbolicateStacktrace {d out : Dict}
    (h : symbolicateStacktrace rt files orgId projectId release d = .ok out) :
    frameList out = (frameList d).map
      (symbolicatedAlone rt files (releaseMapsDir orgId projectId release)) := by
  obtain ⟨stacktrace, frames, dir, frames', hst, hframes, hdir, hmap, rfl⟩ | ⟨hno, rfl⟩ :=
    symbolicateStacktrace_cases h
  · have hall : List.Forall₂ Eq (frames.map (symbolicatedAlone rt files (.ok dir))) frames' :=
      List.forall₂_map_left_iff.mpr
        ((mapM_eq_ok.mp hmap).imp fun _ _ hframe => symbolicatedAlone_ok hframe)
    rw [List.forall₂_eq_eq_eq] at hall
    rw [frameList_set, frameList_of_list hst hframes, hdir, hall]
  · rw [frameList_of_no_list hno]
    rfl

theorem chain_symbolicateException {d out : Dict}
    (h : symbolicateException rt files orgId projectId release d = .ok out) :
    (causeChain out).map frameList = ((causeChain d).map frameList).map
      (List.map (symbolicatedAlone rt files (releaseMapsDir orgId projectId release))) := by
  have hst : py "stacktrace" ≠ py "cause" := by decide
  have hcause : py "cause" ≠ py "stacktrace" := by decide
  induction d using causeChain.induct generalizing out with
  | case1 d cause hget _ ih =>
      obtain ⟨top, htop, ⟨c, cause', hc, rfl, hrec⟩ | ⟨hno, -⟩⟩ := symbolicateException_cases h
      · cases hget.symm.trans hc
        rw [causeChain_cause hget, causeChain_cause (Dict.get_set_self ..)]
        simp only [List.map_cons]
        rw [ih hrec, frameList_congr (Dict.get_set_ne _ hst _),
          frameList_symbolicateStacktrace htop]
      · exact absurd hget (hno cause)
  | case2 d hroot =>
      obtain ⟨top, htop, ⟨c, _, hc, -, -⟩ | ⟨hno, rfl⟩⟩ := symbolicateException_cases h
      · exact absurd hc (hroot c)
      · have hget := symbolicateStacktrace_get hcause htop
        rw [causeChain_root hno, causeChain_root fun cause => hget ▸ hno cause]
        simp only [List.map_cons, List.map_nil]
        rw [frameList_symbolicateStacktrace htop]

theorem symbolicateStacktrace_isOk_iff {dir : Path} (hdir : releaseMapsDir orgId projectId release =
    .ok dir) {d : Dict} :
    (∃ out, symbolicateStacktrace rt files orgId projectId release d = .ok out) ↔
      ∀ frame ∈ frameList d, ¬ FrameRaises rt files dir frame := by
  by_cases hlist : ∃ (stacktrace : Dict) (frames : List Json),
      d.get "stacktrace" = .obj stacktrace ∧ stacktrace.get "frames" = .arr frames
  · obtain ⟨stacktrace, frames, hst, hframes⟩ := hlist
    have hall := mapM_isOk (symbolicateStackFrame rt files dir) frames
    simp only [symbolicateStackFrame_isOk_iff] at hall
    rw [frameList_of_list hst hframes, ← hall, symbolicateStacktrace, hst]
    dsimp only
    rw [hframes, hdir]
    simp only [bind, Except.bind, pure, Except.pure]
    cases frames.mapM (symbolicateStackFrame rt files dir) with
    | error e => simp
    | ok out => simp
  · have hno : ∀ (stacktrace : Dict) (frames : List Json), d.get "stacktrace" = .obj stacktrace →
        stacktrace.get "frames" ≠ .arr frames :=
      fun stacktrace frames hst hframes => hlist ⟨stacktrace, frames, hst, hframes⟩
    rw [frameList_of_no_list hno]
    refine iff_of_true ⟨d, ?_⟩ fun _ h => by cases h
    unfold symbolicateStacktrace
    split
    · next stacktrace hst =>
        split
        · next frames hframes => exact absurd hframes (hno stacktrace frames hst)
        · rfl
    · rfl

theorem symbolicateException_isOk_chain {dir : Path}
    (hdir : releaseMapsDir orgId projectId release = .ok dir) (d : Dict) :
    (∃ out, symbolicateException rt files orgId projectId release d = .ok out) ↔
      ∀ link ∈ causeChain d, ∀ frame ∈ frameList link, ¬ FrameRaises rt files dir frame := by
  induction d using causeChain.induct with
  | case1 d cause hget _ ih =>
      rw [symbolicateException_isOk_iff, symbolicateStacktrace_isOk_iff hdir,
        causeChain_cause hget, List.forall_mem_cons, ← ih]
      refine and_congr_right fun _ => ⟨fun h => h cause hget, fun h c hc => ?_⟩
      cases hget.symm.trans hc
      exact h
  | case2 d hroot =>
      rw [symbolicateException_isOk_iff, symbolicateStacktrace_isOk_iff hdir,
        causeChain_root hroot, List.forall_mem_singleton]
      exact and_iff_left fun c hc => absurd hc (hroot c)

variable (rt files)

/-- No file that is tried for a frame of the chain raises. -/
def NoneRaises (orgId projectId release : PyStr) (envelope : Dict) : Prop :=
  ∀ dir, releaseMapsDir orgId projectId release = .ok dir →
    ∀ frames ∈ chainFrames envelope, ∀ frame ∈ frames, ¬ FrameRaises rt files dir frame

/-- No frame of the chain would be rewritten. -/
def NoneRewritten (orgId projectId release : PyStr) (envelope : Dict) : Prop :=
  ∀ dir, releaseMapsDir orgId projectId release = .ok dir →
    ∀ frames ∈ chainFrames envelope, ∀ frame ∈ frames, NothingToRewrite rt files dir frame

variable {rt files}

theorem forall₂_sameFrame_refl (frames : List (List Json)) :
    List.Forall₂ (List.Forall₂ SameFrame) frames frames :=
  List.forall₂_same.mpr fun _ _ => List.forall₂_same.mpr fun frame _ => sameFrame_refl frame

/-- Frames that stay as they came are isolated when nothing is to be rewritten. -/
theorem framesIsolated_self_iff (envelope : Dict) :
    FramesIsolated rt files orgId projectId release envelope envelope ↔
      NoneRewritten rt files orgId projectId release envelope := by
  unfold FramesIsolated NoneRewritten
  rw [List.forall₂_map_right_iff, List.forall₂_same]
  simp only [List.forall₂_map_right_iff, List.forall₂_same]
  cases hdir : releaseMapsDir orgId projectId release with
  | error e => exact iff_of_true (fun _ _ frame _ => sameFrame_refl frame) fun _ h => by cases h
  | ok dir =>
      constructor
      · intro h dir' heq frames hframes frame hframe
        cases heq
        exact sameFrame_alone_iff.mp (sameFrame_comm.mp (h frames hframes frame hframe))
      · exact fun h frames hframes frame hframe =>
          sameFrame_comm.mp (sameFrame_alone_iff.mpr (h dir rfl frames hframes frame hframe))

theorem framesIsolated_of_exception {envelope exception out : Dict}
    (hexc : envelope.get "exception" = .obj exception)
    (h : symbolicateException rt files orgId projectId release exception = .ok out) :
    FramesIsolated rt files orgId projectId release envelope
      (envelope.set "exception" (.obj out)) := by
  have hchain : chainFrames (envelope.set "exception" (.obj out)) =
      (chainFrames envelope).map
        (List.map (symbolicatedAlone rt files (releaseMapsDir orgId projectId release))) := by
    rw [chainFrames, chainFrames, Dict.get_set_self, hexc]
    exact chain_symbolicateException h
  rw [FramesIsolated, hchain]
  exact forall₂_sameFrame_refl _

/-- The handler around the envelope gives it back as it came. -/
theorem symbolicateEnvelope_of_raises {envelope exception : Dict} {c : CodePoint} {cs : PyStr}
    (hexc : envelope.get "exception" = .obj exception)
    (hrelease : envelope.get "release" = .str (c :: cs))
    (h : ¬ ∃ out, symbolicateException rt files orgId projectId (c :: cs) exception = .ok out) :
    symbolicateEnvelope rt files envelope orgId projectId = envelope := by
  unfold symbolicateEnvelope
  rw [hexc, hrelease]
  split
  · next heq hrel =>
      cases heq
      cases hrel
      split_ifs
      · split
        · next out hout => exact absurd ⟨out, hout⟩ h
        · rfl
      · rfl
  · rfl

/-- The maps of a browser event with a release are isolated from each other exactly when none that
is tried raises, or none of those that do not has anything to rewrite. -/
theorem maps_isolated_iff {envelope : Dict} {c : CodePoint} {cs : PyStr}
    (hplatform : envelope.get "platform" = .str (py "javascript"))
    (hrelease : envelope.get "release" = .str (c :: cs)) :
    FramesIsolated rt files orgId projectId (c :: cs) envelope
        (symbolicateEnvelope rt files envelope orgId projectId) ↔
      NoneRaises rt files orgId projectId (c :: cs) envelope ∨
        NoneRewritten rt files orgId projectId (c :: cs) envelope := by
  by_cases hexc : ∃ exception, envelope.get "exception" = .obj exception
  · obtain ⟨exception, hexc⟩ := hexc
    have hraises {dir : Path} (hdir : releaseMapsDir orgId projectId (c :: cs) = .ok dir) :
        NoneRaises rt files orgId projectId (c :: cs) envelope ↔
          ∃ out, symbolicateException rt files orgId projectId (c :: cs) exception = .ok out := by
      rw [symbolicateException_isOk_chain hdir, NoneRaises, chainFrames, hexc]
      simp only [hdir, Except.ok.injEq, forall_eq', List.forall_mem_map]
    by_cases hok : ∃ out,
        symbolicateException rt files orgId projectId (c :: cs) exception = .ok out
    · have hnone : NoneRaises rt files orgId projectId (c :: cs) envelope :=
        fun dir hdir => (hraises hdir).mpr hok dir hdir
      obtain ⟨out, hout⟩ := hok
      have hset : symbolicateEnvelope rt files envelope orgId projectId =
          envelope.set "exception" (.obj out) := by
        rw [symbolicateEnvelope, hplatform, hexc, hrelease]
        dsimp only
        rw [if_pos rfl, hout]
      rw [hset]
      exact iff_of_true (framesIsolated_of_exception hexc hout) (.inl hnone)
    · rw [symbolicateEnvelope_of_raises hexc hrelease hok, framesIsolated_self_iff]
      refine ⟨.inr, ?_⟩
      rintro (hnone | hnone)
      · exact fun dir hdir => absurd ((hraises hdir).mp hnone) hok
      · exact hnone
  · have hnone : chainFrames envelope = [] := by
      unfold chainFrames
      split
      · next exception h => exact absurd ⟨exception, h⟩ hexc
      · rfl
    have hself : symbolicateEnvelope rt files envelope orgId projectId = envelope := by
      unfold symbolicateEnvelope
      split
      · next h _ => exact absurd ⟨_, h⟩ hexc
      · rfl
    rw [hself, FramesIsolated, NoneRaises, hnone]
    exact iff_of_true .nil (.inl fun _ _ frames h => by cases h)

omit rt files orgId projectId release

def goodMap : PyStr :=
  py "\x7b\"version\":3,\"sources\":[\"src/a.ts\",\"src/b.ts\"],\"names\":[\"f\",\"g\"]," ++
    py "\"mappings\":\"AAAA\"\x7d"

/-- The sources are a number. -/
def numberMap : PyStr := py "\x7b\"version\":3,\"sources\":5,\"mappings\":\"AAAA\"\x7d"

def mapRuntime : Runtime :=
  { sampleRuntime with
    jsonLoads data :=
      if utf8Encode goodMap = .ok data then .ok (.obj (sampleDocument (py "AAAA")))
      else if utf8Encode numberMap = .ok data then
        .ok (.obj [(py "version", .int 3), (py "sources", .int 5),
          (py "mappings", .str (py "AAAA"))])
      else .error .valueError }

/-- The release `1.0` of a project with two maps. -/
def mapFiles : Filesystem := fun path =>
  if path = [py "org", py "project", py "MS4w", py "app.js.map"] then (utf8Encode goodMap).toOption
  else if path = [py "org", py "project", py "MS4w", py "vendor.js.map"] then
    (utf8Encode numberMap).toOption
  else none

def vendorFrame : Dict :=
  [(py "filename", .str (py "https://cdn.example/vendor.js")), (py "lineno", .int 1),
    (py "colno", .int 1)]

def twoMapException : Dict :=
  [(py "stacktrace", .obj [(py "frames", .arr [.obj minifiedFrame, .obj vendorFrame])])]

def twoMapEnvelope : Dict :=
  [(py "platform", .str (py "javascript")), (py "release", .str (py "1.0")),
    (py "exception", .obj twoMapException)]

theorem twoMapEnvelope_isolated_iff :
    FramesIsolated mapRuntime mapFiles (py "org") (py "project") (py "1.0") twoMapEnvelope
        (symbolicateEnvelope mapRuntime mapFiles twoMapEnvelope (py "org") (py "project")) ↔
      NoneRaises mapRuntime mapFiles (py "org") (py "project") (py "1.0") twoMapEnvelope ∨
        NoneRewritten mapRuntime mapFiles (py "org") (py "project") (py "1.0") twoMapEnvelope :=
  maps_isolated_iff rfl rfl

/-- The map of the second frame keeps the first from being rewritten. -/
theorem number_map_not_isolated :
    twoMapEnvelope.get "platform" = .str (py "javascript") ∧
    twoMapEnvelope.get "release" = .str (py "1.0") ∧
    ¬ FramesIsolated mapRuntime mapFiles (py "org") (py "project") (py "1.0") twoMapEnvelope
      (symbolicateEnvelope mapRuntime mapFiles twoMapEnvelope (py "org") (py "project")) := by
  have hplatform : twoMapEnvelope.get "platform" = .str (py "javascript") := rfl
  have hrelease : twoMapEnvelope.get "release" = .str (py "1.0") := rfl
  have hexc : twoMapEnvelope.get "exception" = .obj twoMapException := rfl
  have hstack : (symbolicateStacktrace mapRuntime mapFiles (py "org") (py "project") (py "1.0")
      twoMapException).isOk = false := by decide +kernel
  have hraises : ¬ ∃ out, symbolicateException mapRuntime mapFiles (py "org") (py "project")
      (py "1.0") twoMapException = .ok out := fun hout => by
    rw [isOk_iff.mpr (symbolicateException_isOk_iff.mp hout).1] at hstack
    cases hstack
  refine ⟨hplatform, hrelease, ?_⟩
  rw [symbolicateEnvelope_of_raises hexc hrelease hraises, framesIsolated_self_iff]
  intro hnone
  have hsegment : (loadSourceMap mapRuntime mapFiles
      [py "org", py "project", py "MS4w", py "app.js.map"]).toOption.bind (fun found =>
        found.bind fun m => m.segmentAt minifiedFrame) =
      some (⟨0, 0, 0, 0, none⟩, py "src/a.ts") := by decide +kernel
  obtain ⟨found, hfound, hseg⟩ := Option.bind_eq_some_iff.mp hsegment
  obtain ⟨m, rfl, hseg⟩ := Option.bind_eq_some_iff.mp hseg
  have hdir : releaseMapsDir (py "org") (py "project") (py "1.0") =
      .ok [py "org", py "project", py "MS4w"] := by decide +kernel
  have hpaths : mapPaths [py "org", py "project", py "MS4w"] (.obj minifiedFrame) =
      [[py "org", py "project", py "MS4w", py "app.js.map"]] := by decide +kernel
  have hmem : [Json.obj minifiedFrame, .obj vendorFrame] ∈ chainFrames twoMapEnvelope := by
    rw [chainFrames, hexc]
    exact List.mem_map.mpr ⟨twoMapException, mem_causeChain_self _, rfl⟩
  have hcarries : Carries minifiedFrame m ⟨0, 0, 0, 0, none⟩ (py "src/a.ts") :=
    hnone _ hdir _ hmem _ List.mem_cons_self minifiedFrame m _ _ rfl _
      (by rw [hpaths]; exact List.mem_singleton_self _) (toOption_eq_some hfound) hseg
  have hraw := hcarries ("raw_filename", minifiedFrame.get "filename")
    (by simp [writes, positionWrites])
  cases hraw

end Chain

end Crashlens
