import Crashlens.NormalizeSpec
import Crashlens.PathNames

/-!
# The map of a frame before and after normalisation

Symbolication takes the map of a frame from the last path segment of its filename, and it comes
after normalisation, which cuts off the end of a long filename and puts the marker there. The marker
has two dots in a row, so that the segment it ends is no file name any more.
-/

namespace Crashlens

open Assoc

/-! ## One filename -/

section Filename

/-- A query or a fragment begins in the text. -/
def HasQuery (s : PyStr) : Prop := ∃ c ∈ s, c.val = 0x3F ∨ c.val = 0x23

/-- The path of the filename ends in what is kept of it. -/
def QueryKept (filename : PyStr) : Prop :=
  HasQuery (filename.take (filenameMax - truncationMarker.length))

/-- The filename is short enough, its path is within what is kept of it, or it names no map. -/
def FilenameKept (filename : PyStr) : Prop :=
  filename.length ≤ filenameMax ∨ QueryKept filename ∨ ¬ FileName (lastSegment filename)

theorem urlPath_append_of_query {a : PyStr} (h : HasQuery a) (b : PyStr) :
    urlPath (a ++ b) = urlPath a := by
  obtain ⟨c, hc, hquery⟩ := h
  have hstop : (c.val ≠ 0x3F && c.val ≠ 0x23) = false := by
    obtain hq | hf := hquery
    · simp [hq]
    · simp [hf]
  have hlength : ¬ (urlPath a).length = a.length := fun hlength => by
    have hall := List.takeWhile_eq_self_iff.mp (List.takeWhile_prefix _ |>.eq_of_length hlength)
    have hgo := hall c hc
    rw [hstop] at hgo
    cases hgo
  exact List.takeWhile_append.trans (if_neg hlength)

theorem urlPath_append_of_not_query {a : PyStr} (h : ¬ HasQuery a) (b : PyStr) :
    urlPath (a ++ b) = a ++ urlPath b := by
  refine List.takeWhile_append_of_pos fun c hc => ?_
  have hno : ¬ (c.val = 0x3F ∨ c.val = 0x23) := fun hquery => h ⟨c, hc, hquery⟩
  simpa only [Bool.and_eq_true, decide_eq_true_eq, ← not_or] using hno

/-- What ends in the marker is no file name. -/
theorem not_fileName_marker (s : PyStr) : ¬ FileName (s ++ truncationMarker) := by
  intro hname
  have hdots : containsSub (py "..") truncationMarker = true := by decide
  have hsub := containsSub_append (py "..") s hdots
  rw [hname.noDots] at hsub
  cases hsub

theorem basename_truncateString_of_kept {filename : PyStr}
    (h : filename.length ≤ filenameMax ∨ QueryKept filename) :
    basenameFromFrameFilename (.str (truncateString filename filenameMax)) =
      basenameFromFrameFilename (.str filename) := by
  by_cases hshort : filename.length ≤ filenameMax
  · rw [truncateString_of_le hshort]
  · have hquery := h.resolve_left hshort
    have hpath : urlPath (truncateString filename filenameMax) = urlPath filename := by
      conv_rhs => rw [← List.take_append_drop (filenameMax - truncationMarker.length) filename]
      rw [truncateString, if_neg hshort, urlPath_append_of_query hquery,
        urlPath_append_of_query hquery]
    rw [basenameFromFrameFilename_str, basenameFromFrameFilename_str, lastSegment, hpath,
      ← lastSegment]

theorem basename_truncateString_of_cut {filename : PyStr} (hlong : ¬ filename.length ≤ filenameMax)
    (hquery : ¬ QueryKept filename) :
    basenameFromFrameFilename (.str (truncateString filename filenameMax)) = none := by
  have hslash : slash ∉ truncationMarker := by decide
  have hmarker : urlPath truncationMarker = truncationMarker := by decide
  rw [basenameFromFrameFilename_eq_none_iff, lastSegment, truncateString, if_neg hlong,
    urlPath_append_of_not_query hquery, hmarker, osPathBasename_append hslash]
  exact not_fileName_marker _

theorem basename_truncateString_iff (filename : PyStr) :
    basenameFromFrameFilename (.str (truncateString filename filenameMax)) =
      basenameFromFrameFilename (.str filename) ↔ FilenameKept filename := by
  unfold FilenameKept
  rw [← or_assoc]
  by_cases hkept : filename.length ≤ filenameMax ∨ QueryKept filename
  · exact iff_of_true (basename_truncateString_of_kept hkept) (.inl hkept)
  · obtain ⟨hlong, hquery⟩ := not_or.mp hkept
    rw [basename_truncateString_of_cut hlong hquery, eq_comm,
      basenameFromFrameFilename_eq_none_iff, or_iff_right hkept]

end Filename

/-! ## The frames of an envelope -/

section Frames

/-- The files that are tried for a frame. -/
def mapPaths (dir : Path) : Json → List Path
  | .obj frame =>
    match basenameFromFrameFilename (Dict.get frame "filename") with
    | some basename => (mapCandidates basename).map fun candidate => dir ++ [candidate]
    | none => []
  | _ => []

theorem firstMap_congr {rt : Runtime} {files files' : Filesystem} {dir : Path}
    {candidates : List PyStr} (h : ∀ c ∈ candidates, files (dir ++ [c]) = files' (dir ++ [c])) :
    firstMap rt files dir candidates = firstMap rt files' dir candidates := by
  induction candidates with
  | nil => rfl
  | cons c cs ih =>
      rw [List.forall_mem_cons] at h
      rw [firstMap, firstMap, ih h.2, loadSourceMap, loadSourceMap, h.1]

/-- No other file has a say in what becomes of the frame. -/
theorem symbolicateStackFrame_congr {rt : Runtime} {files files' : Filesystem} {dir : Path}
    {frame : Json} (h : ∀ path ∈ mapPaths dir frame, files path = files' path) :
    symbolicateStackFrame rt files dir frame = symbolicateStackFrame rt files' dir frame := by
  cases frame with
  | obj frame =>
      rw [mapPaths] at h
      rw [symbolicateStackFrame, symbolicateStackFrame]
      cases hbase : basenameFromFrameFilename (Dict.get frame "filename") with
      | none => rfl
      | some basename =>
          rw [hbase] at h
          dsimp only
          rw [firstMap_congr fun c hc => h _ (List.mem_map_of_mem hc)]
  | _ => rfl

theorem mapPaths_str {dir : Path} {frame : Dict} {filename : PyStr}
    (h : frame.get "filename" = .str filename) : mapPaths dir (.obj frame) =
      match basenameFromFrameFilename (.str filename) with
      | some basename => (mapCandidates basename).map fun candidate => dir ++ [candidate]
      | none => [] := by
  rw [mapPaths, h]

theorem mapPaths_eq_nil_iff {dir : Path} {frame : Dict} {filename : PyStr}
    (h : frame.get "filename" = .str filename) :
    mapPaths dir (.obj frame) = [] ↔ basenameFromFrameFilename (.str filename) = none := by
  rw [mapPaths_str h]
  cases hbase : basenameFromFrameFilename (.str filename) with
  | none => exact iff_of_true rfl rfl
  | some basename =>
      refine iff_of_false ?_ (Option.some_ne_none basename)
      dsimp only
      unfold mapCandidates
      split_ifs
      · exact List.cons_ne_nil _ _
      · exact List.cons_ne_nil _ _

theorem normalizeFrame_filename (frame : Dict) : Dict.get (reviseAll frameRules frame) "filename" =
    truncateIfStr filenameMax (frame.get "filename") := by
  have hmem : (py "filename", truncateRule filenameMax) ∈ frameRules := List.mem_cons_self
  rw [get_reviseAll (by decide) hmem rfl]
  cases frame.get "filename" with
  | _ => rfl

theorem mapPaths_eq_iff {dir : Path} {frame : Dict} {filename : PyStr}
    (h : frame.get "filename" = .str filename) :
    mapPaths dir (normalizeFrame (.obj frame)) = mapPaths dir (.obj frame) ↔
      FilenameKept filename := by
  have hname : Dict.get (reviseAll frameRules frame) "filename" =
      .str (truncateString filename filenameMax) := by
    rw [normalizeFrame_filename, h, truncateIfStr]
  rw [normalizeFrame_obj]
  by_cases hkept : filename.length ≤ filenameMax ∨ QueryKept filename
  · rw [mapPaths_str hname, mapPaths_str h, basename_truncateString_of_kept hkept]
    exact iff_of_true rfl (or_assoc.mp (.inl hkept))
  · obtain ⟨hlong, hquery⟩ := not_or.mp hkept
    have hcut := basename_truncateString_of_cut hlong hquery
    rw [(mapPaths_eq_nil_iff hname).mpr hcut, eq_comm, mapPaths_eq_nil_iff h,
      ← basename_truncateString_iff, hcut, eq_comm]

/-- A frame that is no object or has no string for its filename names no map. -/
theorem mapPaths_normalizeFrame {dir : Path} {frame : Json}
    (h : ∀ (f : Dict) (filename : PyStr), frame = .obj f → f.get "filename" ≠ .str filename) :
    mapPaths dir (normalizeFrame frame) = mapPaths dir frame := by
  cases frame with
  | obj frame =>
      have hname : Dict.get (reviseAll frameRules frame) "filename" =
          Dict.get frame "filename" := by
        rw [normalizeFrame_filename]
        cases hget : Dict.get frame "filename" with
        | str filename => exact absurd hget (h frame filename rfl)
        | _ => rfl
      rw [normalizeFrame_obj, mapPaths, mapPaths, hname]
  | _ => rfl

/-- The frames of an envelope that are kept, as they came. -/
def keptFrames (envelope : Dict) : List Json :=
  match envelope.get "exception" with
  | .obj exception => ((causeChain exception).take maxCauseDepth).flatMap fun d =>
      lastN maxFrames (frameList d)
  | _ => []

/-- The frames of the exceptions of an envelope. -/
def envelopeFrames (envelope : Dict) : List Json :=
  match envelope.get "exception" with
  | .obj exception => (causeChain exception).flatMap frameList
  | _ => []

theorem envelopeFrames_capEnvelope (envelope : Dict) :
    envelopeFrames (capEnvelope envelope) = (keptFrames envelope).map normalizeFrame := by
  have hst : py "stacktrace" ≠ py "cause" := by decide
  have hflat {chain out : List Dict} (h : List.Forall₂ (fun d out =>
      frameList out = (lastN maxFrames (frameList d)).map normalizeFrame) chain out) :
      out.flatMap frameList =
        (chain.flatMap fun d => lastN maxFrames (frameList d)).map normalizeFrame := by
    induction h with
    | nil => rfl
    | cons hd _ ih => rw [List.flatMap_cons, List.flatMap_cons, List.map_append, ih, hd]
  unfold envelopeFrames keptFrames
  rw [capEnvelope_exception]
  cases envelope.get "exception" with
  | obj exception =>
      refine hflat (forall₂_normalizeException (fun d => ?_) (fun d cause out _ => ?_) _ exception)
      · rw [← frameList_capFrames]
        exact frameList_congr (Dict.get_pop_ne _ hst)
      · rw [← frameList_capFrames]
        exact frameList_congr (Dict.get_set_ne _ hst _)
  | _ => rfl

/-- The filename of every frame that is kept survives the cut. -/
def FilenamesKept (envelope : Dict) : Prop :=
  ∀ frame ∈ keptFrames envelope, ∀ (f : Dict) (filename : PyStr), frame = .obj f →
    f.get "filename" = .str filename → FilenameKept filename

theorem mapPaths_kept_iff (dir : Path) (envelope : Dict) :
    (∀ frame ∈ keptFrames envelope,
      mapPaths dir (normalizeFrame frame) = mapPaths dir frame) ↔ FilenamesKept envelope := by
  constructor
  · rintro h frame hframe f filename rfl hname
    exact (mapPaths_eq_iff hname).mp (h _ hframe)
  · intro h frame hframe
    by_cases hname : ∃ (f : Dict) (filename : PyStr), frame = .obj f ∧
        f.get "filename" = .str filename
    · obtain ⟨f, filename, rfl, hname⟩ := hname
      exact (mapPaths_eq_iff hname).mpr (h _ hframe f filename rfl hname)
    · exact mapPaths_normalizeFrame fun f filename hf hget => hname ⟨f, filename, hf, hget⟩

/-- Normalisation keeps the map that a filename names exactly when the filename survives the cut,
and the files that are tried for the frames of an envelope exactly when all of theirs do. -/
theorem map_kept_iff (rt : Runtime) (filename : PyStr) (dir : Path) (envelope : Dict) :
    (basenameFromFrameFilename (.str (truncateString filename filenameMax)) =
      basenameFromFrameFilename (.str filename) ↔ FilenameKept filename) ∧
    (∀ env, normalizeEnvelope rt envelope = .ok env →
      envelopeFrames env = (keptFrames envelope).map normalizeFrame) ∧
    ((∀ frame ∈ keptFrames envelope,
      mapPaths dir (normalizeFrame frame) = mapPaths dir frame) ↔ FilenamesKept envelope) :=
  ⟨basename_truncateString_iff filename,
    fun _ henv => (normalizeEnvelope_ok_iff.mp henv).2 ▸ envelopeFrames_capEnvelope envelope,
    mapPaths_kept_iff dir envelope⟩

/-- A URL of 300 characters without a query. -/
def longUrl : PyStr := List.replicate 293 (CodePoint.ofNat 0x61) ++ py "/app.js"

theorem long_url_loses_map :
    ¬ basenameFromFrameFilename (.str (truncateString longUrl filenameMax)) =
      basenameFromFrameFilename (.str longUrl) := by
  have hnone : basenameFromFrameFilename (.str (truncateString longUrl filenameMax)) = none := by
    decide +kernel
  have happ : basenameFromFrameFilename (.str longUrl) = some (py "app.js") := by decide +kernel
  rw [hnone, happ]
  exact (Option.some_ne_none _).symm

end Frames

end Crashlens
