import Crashlens.PyValue

/-!
# Source maps: storage layout, parsing and symbolication

Uploaded maps live under `root/org/project/releaseDirname release/basename`; a `Filesystem` gives
the bytes of the file at a path below the root, component by component. A Source Map v3 document is
parsed into segments per generated line, and the frames of a `javascript` exception are rewritten
through the map of their asset. Whatever goes wrong on the way leaves the envelope as it was.
-/

namespace Crashlens

abbrev Path := List PyStr

abbrev Filesystem := Path → Option (List UInt8)

/-! ## Path safety -/

def base64urlAlphabet : PyStr :=
  py "ABCDEFGHIJKLMNOPQRSTUVWXYZabcdefghijklmnopqrstuvwxyz0123456789-_"

def base64urlDigit (n : ℕ) : CodePoint := base64urlAlphabet.getD (n % 64) (CodePoint.ofNat 0)

/-- `base64.urlsafe_b64encode` -/
def urlsafeB64encode : List UInt8 → PyStr
  | [] => []
  | [a] => [base64urlDigit (a.toNat >>> 2), base64urlDigit (a.toNat <<< 4)] ++ py "=="
  | [a, b] =>
    [base64urlDigit (a.toNat >>> 2), base64urlDigit ((a.toNat <<< 4) + (b.toNat >>> 4)),
      base64urlDigit (b.toNat <<< 2)] ++ py "="
  | a :: b :: c :: rest =>
    [base64urlDigit (a.toNat >>> 2), base64urlDigit ((a.toNat <<< 4) + (b.toNat >>> 4)),
      base64urlDigit ((b.toNat <<< 2) + (c.toNat >>> 6)), base64urlDigit c.toNat] ++
      urlsafeB64encode rest

def releaseDirname (release : PyStr) : Except PyError PyStr := do
  return rstrip (fun c => c.val = 0x3D) (urlsafeB64encode (← utf8Encode release))

def slash : CodePoint := CodePoint.ofNat 0x2F

/-- `os.path.basename`: everything after the last `/`. -/
def osPathBasename (name : PyStr) : PyStr := (splitOn slash name).getLast?.getD []

def containsSub (pattern : PyStr) : PyStr → Bool
  | [] => pattern.isEmpty
  | c :: cs => pattern.isPrefixOf (c :: cs) || containsSub pattern cs

def safeBasename (name : PyStr) : Option PyStr :=
  let base := osPathBasename name
  if name = [] ∨ base = [] ∨ base = py "." ∨ base = py ".." then none
  else if slash ∈ base ∨ CodePoint.ofNat 0x5C ∈ base ∨ containsSub (py "..") base ∨
      CodePoint.ofNat 0 ∈ base then none
  else some base

def basenameFromFrameFilename : Json → Option PyStr
  | .str [] => none
  | .str filename =>
    let tail := ((splitOn (CodePoint.ofNat 0x3F) filename).headD [])
    let tail := ((splitOn (CodePoint.ofNat 0x23) tail).headD [])
    safeBasename (osPathBasename tail)
  | _ => none

def mapCandidates (basename : PyStr) : List PyStr :=
  if (py ".map").isSuffixOf basename then [basename] else [basename ++ py ".map"]

def releaseMapsDir (orgId projectId release : PyStr) : Except PyError Path := do
  return [orgId, projectId, ← releaseDirname release]

/-! ## Source Map v3 parsing -/

def b64 : PyStr := py "ABCDEFGHIJKLMNOPQRSTUVWXYZabcdefghijklmnopqrstuvwxyz0123456789+/"

def vlqContinuation : ℕ := 0x20

def vlqMask : ℕ := 0x1F

/-- The loop of `decode_vlq`; `haveBits` is set while a value is incomplete. -/
def decodeVlqLoop : PyStr → (shift acc : ℕ) → (haveBits : Bool) → (values : List ℤ) →
    Except PyError (List ℤ)
  | [], _, _, haveBits, values => if haveBits then .error .valueError else .ok values
  | ch :: rest, shift, acc, _, values =>
    match b64.idxOf? ch with
    | none => .error .valueError
    | some digit =>
      let acc := acc + (digit &&& vlqMask) <<< shift
      if digit &&& vlqContinuation ≠ 0 then decodeVlqLoop rest (shift + 5) acc true values
      else
        let magnitude : ℤ := (acc >>> 1 : ℕ)
        decodeVlqLoop rest 0 0 false
          (values ++ [if acc &&& 1 ≠ 0 then -magnitude else magnitude])

def decodeVlq (segment : PyStr) : Except PyError (List ℤ) := decodeVlqLoop segment 0 0 false []

structure Segment where
  genCol : ℤ
  srcIndex : ℤ
  origLine : ℤ
  origCol : ℤ
  nameIndex : Option ℤ
  deriving DecidableEq, Repr

structure SourceMap where
  sources : List PyStr
  sourcesContent : List (Option PyStr)
  names : List PyStr
  lines : List (ℤ × List Segment)

/-- The fields that are cumulative over the whole file. -/
structure MapCursor where
  srcIndex : ℤ := 0
  origLine : ℤ := 0
  origCol : ℤ := 0
  nameIndex : ℤ := 0

/-- One decoded segment of a line. Segments without a source binding only move the column. -/
def readSegment (fields : List ℤ) (cur : MapCursor) (genCol : ℤ) (row : List Segment) :
    MapCursor × ℤ × List Segment :=
  match fields with
  | [] => (cur, genCol, row)
  | col :: src :: line :: ocol :: more =>
    let cur := { cur with
      srcIndex := cur.srcIndex + src
      origLine := cur.origLine + line
      origCol := cur.origCol + ocol }
    match more with
    | name :: _ =>
      let cur := { cur with nameIndex := cur.nameIndex + name }
      (cur, genCol + col, row ++ [⟨genCol + col, cur.srcIndex, cur.origLine, cur.origCol,
        some cur.nameIndex⟩])
    | [] => (cur, genCol + col, row ++ [⟨genCol + col, cur.srcIndex, cur.origLine, cur.origCol,
        none⟩])
  | col :: _ => (cur, genCol + col, row)

def readSegments : List PyStr → MapCursor → (genCol : ℤ) → (row : List Segment) →
    Except PyError (MapCursor × List Segment)
  | [], cur, _, row => .ok (cur, row)
  | [] :: rest, cur, genCol, row => readSegments rest cur genCol row
  | rawSegment :: rest, cur, genCol, row => do
    let fields ← decodeVlq rawSegment
    let (cur, genCol, row) := readSegment fields cur genCol row
    readSegments rest cur genCol row

def comma : CodePoint := CodePoint.ofNat 0x2C

def semicolon : CodePoint := CodePoint.ofNat 0x3B

def readLines : List PyStr → (genLine : ℤ) → MapCursor → Except PyError (List (ℤ × List Segment))
  | [], _, _ => .ok []
  | [] :: rest, genLine, cur => readLines rest (genLine + 1) cur
  | line :: rest, genLine, cur => do
    let (cur, row) ← readSegments (splitOn comma line) cur 0 []
    let lines ← readLines rest (genLine + 1) cur
    return if row.isEmpty then lines
      else (genLine, row.insertionSort fun a b => a.genCol ≤ b.genCol) :: lines

def Json.equalsThree : Json → Bool
  | .int n => n = 3
  | .float (.finite negative q) => !negative && q = 3
  | _ => false

/-- `raw.get(key) or []` -/
def orEmptyList (value : Json) : Except PyError (List Json) :=
  if value.truthy then value.iter else .ok []

def strOrEmpty : Json → PyStr
  | .str s => s
  | _ => []

def strOrNone : Json → Option PyStr
  | .str s => some s
  | _ => none

def parseSourceMap : Json → Except PyError SourceMap
  | .obj raw => do
    if !(Dict.get raw "version").equalsThree then throw .valueError
    match Dict.get raw "mappings" with
    | .str mappings =>
      let sources ← orEmptyList (Dict.get raw "sources")
      let contents ← orEmptyList (Dict.get raw "sourcesContent")
      let names ← orEmptyList (Dict.get raw "names")
      let lines ← readLines (splitOn semicolon mappings) 0 {}
      return ⟨sources.map strOrEmpty, contents.map strOrNone, names.map strOrEmpty, lines⟩
    | _ => throw .valueError
  | _ => .error .valueError

namespace SourceMap

variable (m : SourceMap)

def lookup (genLine genCol : ℤ) : Option Segment :=
  ((m.lines.lookup genLine).getD []).takeWhile (fun seg => seg.genCol ≤ genCol) |>.getLast?

/-- `seq[i]` for an index checked against the length before. -/
def index {α : Type} (xs : List α) (i : ℤ) : Option α :=
  if 0 ≤ i ∧ i < xs.length then xs[i.toNat]? else none

def contextWindow : ℕ := 5

def sourceContext (srcIndex origLine : ℤ) : Option (PyStr × List PyStr × List PyStr) :=
  match index m.sourcesContent srcIndex with
  | some (some content) =>
    let srcLines := splitOn (CodePoint.ofNat 0x0A) content
    match index srcLines origLine with
    | some contextLine =>
      let n := origLine.toNat
      some (contextLine, (srcLines.take n).drop (n - contextWindow),
        (srcLines.drop (n + 1)).take contextWindow)
    | none => none
  | _ => none

end SourceMap

/-! ## Symbolication -/

/-- `value` when `isinstance(value, int)`; booleans are integers. -/
def asInt : Json → Option ℤ
  | .int n => some n
  | .bool b => some (if b then 1 else 0)
  | _ => none

def symbolicateFrame (frame : Dict) (m : SourceMap) : Dict :=
  match asInt (frame.get "lineno"), asInt (frame.get "colno") with
  | some lineno, some colno =>
    match m.lookup (lineno - 1) (max (colno - 1) 0) with
    | none => frame
    | some seg =>
      match SourceMap.index m.sources seg.srcIndex with
      | none => frame
      | some source =>
        let originalPath := if source = [] then frame.get "filename" else .str source
        let out := frame.set "raw_filename" (frame.get "filename")
        let out := Dict.set out "raw_lineno" (frame.get "lineno")
        let out := Dict.set out "filename" originalPath
        let out := Dict.set out "lineno" (.int (seg.origLine + 1))
        let out := Dict.set out "colno" (.int (seg.origCol + 1))
        let out := match seg.nameIndex.bind (SourceMap.index m.names) with
          | some (c :: cs) => Dict.set out "function" (.str (c :: cs))
          | _ => out
        let out := match originalPath with
          | .str p => if containsSub (py "node_modules") p then Dict.set out "in_app" (.bool false)
            else out
          | _ => out
        match m.sourceContext seg.srcIndex seg.origLine with
        | some (contextLine, pre, post) =>
          let out := Dict.set out "context_line" (.str contextLine)
          let out := Dict.set out "pre_context" (.arr (pre.map .str))
          Dict.set out "post_context" (.arr (post.map .str))
        | none => out
  | _, _ => frame

section Envelope

variable (rt : Runtime) (files : Filesystem)

/-- A file name the operating system interface can encode; others make `os.stat` raise
`UnicodeEncodeError`, which is no `OSError`. -/
def encodableName (name : PyStr) : Bool :=
  name.all fun c => !c.isSurrogate || (0xDC80 ≤ c.val && c.val ≤ 0xDCFF)

/-- Absent, unreadable and malformed maps are `None`; a `TypeError` while parsing escapes, and so
does a `RecursionError` while decoding. -/
def loadSourceMap (path : Path) : Except PyError (Option SourceMap) :=
  if !path.all encodableName then .error .unicodeEncodeError
  else
    match files path with
    | none => .ok none
    | some bytes =>
      match rt.jsonLoads bytes >>= parseSourceMap with
      | .ok m => .ok (some m)
      | .error .valueError => .ok none
      | .error e => .error e

def firstMap (releaseDir : Path) : List PyStr → Except PyError (Option SourceMap)
  | [] => .ok none
  | candidate :: rest => do
    match ← loadSourceMap rt files (releaseDir ++ [candidate]) with
    | some m => return some m
    | none => firstMap releaseDir rest

def symbolicateStackFrame (releaseDir : Path) : Json → Except PyError Json
  | .obj frame =>
    match basenameFromFrameFilename (Dict.get frame "filename") with
    | none => .ok (.obj frame)
    | some basename => do
      match ← firstMap rt files releaseDir (mapCandidates basename) with
      | none => return .obj frame
      | some m => return .obj (symbolicateFrame frame m)
  | frame => .ok frame

def symbolicateStacktrace (orgId projectId release : PyStr) (exception : Dict) :
    Except PyError Dict :=
  match exception.get "stacktrace" with
  | .obj stacktrace =>
    match Dict.get stacktrace "frames" with
    | .arr frames => do
      let releaseDir ← releaseMapsDir orgId projectId release
      let newFrames ← frames.mapM (symbolicateStackFrame rt files releaseDir)
      return exception.set "stacktrace" (.obj (Dict.set stacktrace "frames" (.arr newFrames)))
    | _ => .ok exception
  | _ => .ok exception

theorem Dict.sizeOf_get_lt {d : Dict} {key : String} {c : Dict} (h : d.get key = .obj c) :
    sizeOf c < sizeOf d := by
  unfold Dict.get at h
  cases hv : d.lookup (py key) with
  | none =>
      rw [hv] at h
      cases h
  | some v =>
      rw [hv, Option.getD_some] at h
      subst h
      obtain ⟨l₁, l₂, hd, -⟩ := List.lookup_eq_some_iff.mp hv
      have hmem : (py key, Json.obj c) ∈ d := by simp [hd]
      have hlt := List.sizeOf_lt_of_mem hmem
      simp only [Prod.mk.sizeOf_spec, Json.obj.sizeOf_spec] at hlt
      omega

def symbolicateException (orgId projectId release : PyStr) (exception : Dict) :
    Except PyError Dict := do
  let out ← symbolicateStacktrace rt files orgId projectId release exception
  match h : exception.get "cause" with
  | .obj cause =>
    have := Dict.sizeOf_get_lt h
    return out.set "cause" (.obj (← symbolicateException orgId projectId release cause))
  | _ => return out
termination_by sizeOf exception

/-- Any error inside is swallowed and the envelope returned as it came. -/
def symbolicateEnvelope (envelope : Dict) (orgId projectId : PyStr) : Dict :=
  match envelope.get "platform", envelope.get "exception", envelope.get "release" with
  | .str platform, .obj exception, .str (c :: release) =>
    if platform = py "javascript" then
      match symbolicateException rt files orgId projectId (c :: release) exception with
      | .ok out => envelope.set "exception" (.obj out)
      | .error _ => envelope
    else envelope
  | _, _, _ => envelope

end Envelope

end Crashlens
