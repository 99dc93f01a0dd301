import Crashlens.CauseChain
import Crashlens.MapBasename
import Crashlens.ReleaseNames
import Crashlens.SourcemapUpload

/-!
# Where source maps are written, opened and removed

A joined path is the root and the components below it, as long as no component is empty or has a
slash in it. The endpoints and the symbolication join four kinds of components: two UUIDs, the
directory of a release and a file name with what the code appends to it.
-/

namespace Crashlens

open Transactional

/-! ## Joining -/

section Join

/-- A component that stays one when it is joined. -/
structure Component (c : PyStr) : Prop where
  nonempty : c ≠ []
  noSlash : slash ∉ c

def joinSlash : Path → PyStr
  | [] => []
  | [c] => c
  | c :: cs => c ++ slash :: joinSlash cs

/-- A path that something is appended to. -/
def withSlash (path : PyStr) : PyStr :=
  if path = [] ∨ path.getLast? = some slash then path else path ++ [slash]

/-- `root/c₁/…/cₙ` -/
def below (root : PyStr) (components : Path) : PyStr := withSlash root ++ joinSlash components

/-- `os.path.join` of the root and the components, one after the other. -/
def joinAll (root : PyStr) (components : Path) : PyStr := components.foldl osPathJoin root

theorem osPathJoin_component {c : PyStr} (hc : Component c) (path : PyStr) :
    osPathJoin path c = withSlash path ++ c := by
  have hhead : c.head? ≠ some slash := fun h => hc.noSlash (List.mem_of_head? h)
  unfold osPathJoin withSlash
  rw [if_neg hhead]
  split_ifs
  · rfl
  · rw [List.append_assoc, List.singleton_append]

theorem withSlash_component {c : PyStr} (hc : Component c) (s : PyStr) :
    withSlash (s ++ c) = s ++ c ++ [slash] := by
  have hlast : (s ++ c).getLast? ≠ some slash := by
    rw [List.getLast?_append_of_ne_nil _ hc.nonempty]
    exact fun h => hc.noSlash (List.mem_of_getLast? h)
  have hne : s ++ c ≠ [] := List.append_ne_nil_of_right_ne_nil s hc.nonempty
  exact if_neg (not_or.mpr ⟨hne, hlast⟩)

theorem joinAll_append_component {c : PyStr} (hc : Component c) (s : PyStr) {cs : Path}
    (hcs : ∀ c ∈ cs, Component c) : joinAll (s ++ c) cs = s ++ joinSlash (c :: cs) := by
  induction cs generalizing c s with
  | nil => rfl
  | cons c' cs ih =>
      rw [List.forall_mem_cons] at hcs
      have hstep : osPathJoin (s ++ c) c' = (s ++ c ++ [slash]) ++ c' := by
        rw [osPathJoin_component hcs.1, withSlash_component hc]
      calc joinAll (s ++ c) (c' :: cs) = joinAll (osPathJoin (s ++ c) c') cs := rfl
        _ = (s ++ c ++ [slash]) ++ joinSlash (c' :: cs) := by rw [hstep, ih hcs.1 _ hcs.2]
        _ = s ++ joinSlash (c :: c' :: cs) := by simp [joinSlash]

theorem joinAll_eq_below (root : PyStr) {c : PyStr} {cs : Path}
    (h : ∀ c' ∈ c :: cs, Component c') : joinAll root (c :: cs) = below root (c :: cs) := by
  rw [List.forall_mem_cons] at h
  calc joinAll root (c :: cs) = joinAll (osPathJoin root c) cs := rfl
    _ = joinAll (withSlash root ++ c) cs := by rw [osPathJoin_component h.1]
    _ = below root (c :: cs) := joinAll_append_component h.1 _ h.2

end Join

/-! ## The components -/

section Components

theorem slash_notMem_toHex (width n : ℕ) : slash ∉ toHex width n := by
  have hdigit : ∀ i : Fin 16, hexDigit i.val ≠ slash := by decide
  induction width generalizing n with
  | zero => exact List.not_mem_nil
  | succ width ih =>
      rw [toHex, List.mem_append, not_or]
      refine ⟨ih (n / 16), fun h => ?_⟩
      exact hdigit ⟨n % 16, Nat.mod_lt n (by decide)⟩ (List.mem_singleton.mp h).symm

theorem component_uuidStr (n : ℕ) : Component (uuidStr n) := by
  have hdash : slash ∉ py "-" := by decide
  refine ⟨by simp [uuidStr, py], ?_⟩
  unfold uuidStr
  simp only [List.mem_append, not_or]
  exact ⟨⟨⟨⟨⟨⟨⟨⟨slash_notMem_toHex _ _, hdash⟩, slash_notMem_toHex _ _⟩, hdash⟩,
    slash_notMem_toHex _ _⟩, hdash⟩, slash_notMem_toHex _ _⟩, hdash⟩, slash_notMem_toHex _ _⟩

theorem component_releaseDirname {release d : PyStr} (hd : releaseDirname release = .ok d)
    (hne : release ≠ []) : Component d := by
  have hslash : isDirnameChar slash = false := by decide
  obtain ⟨hchars, hnonempty⟩ := releaseDirname_spec hd
  refine ⟨hnonempty hne, fun hmem => ?_⟩
  have hchar := hchars slash hmem
  rw [hslash] at hchar
  cases hchar

theorem FileName.component {base : PyStr} (h : FileName base) {suffix : PyStr}
    (hsuffix : suffix ∈ [[], mapSuffix, tmpSuffix]) : Component (base ++ suffix) := by
  have hno : ∀ s ∈ [[], mapSuffix, tmpSuffix], slash ∉ s := by decide
  refine ⟨List.append_ne_nil_of_left_ne_nil h.nonempty suffix, fun hmem => ?_⟩
  exact (List.mem_append.mp hmem).elim h.noSlash (hno suffix hsuffix)

end Components

/-! ## The endpoints -/

/-- The directory of a release or a file right in it: a file name, with what the code appends. -/
def Confined (root : PyStr) (orgId projectId : ℕ) (d path : PyStr) : Prop :=
  path = below root [uuidStr orgId, uuidStr projectId, d] ∨
    ∃ base suffix, FileName base ∧ suffix ∈ [[], mapSuffix, tmpSuffix] ∧
      path = below root [uuidStr orgId, uuidStr projectId, d, base ++ suffix]

/-- A path of the directory that belongs to the release. -/
def InRelease (root : PyStr) (orgId projectId : ℕ) (release path : PyStr) : Prop :=
  ∃ d, releaseDirname release = .ok d ∧ release ≠ [] ∧ Confined root orgId projectId d path

section Endpoints

/-- The request names only such paths. -/
def Names (C : PyStr → Prop) (q : FileRequest) : Prop := ∀ path ∈ q.paths, C path

variable {C : PyStr → Prop}

theorem names_of_path {q : FileRequest} {path : PyStr} (hq : q.paths = [path]) (h : C path) :
    Names C q := by
  unfold Names
  rw [hq]
  exact List.forall_mem_singleton.mpr h

theorem names_of_no_path {q : FileRequest} (hq : q.paths = []) : Names C q := by
  unfold Names
  rw [hq]
  exact fun path hpath => by cases hpath

theorem issuesOnly_orRaise {α : Type} {P : FileRequest → Prop} (x : Except UploadError α) :
    (orRaise x).IssuesOnly P := by
  cases x with
  | ok a => exact Program.issuesOnly_pure a
  | error e => exact Program.issuesOnly_raise e

theorem issuesOnly_orRaise_bind {α β : Type} {P : FileRequest → Prop} {x : Except UploadError α}
    {f : α → Endpoint β} (hf : ∀ a, x = .ok a → (f a).IssuesOnly P) :
    ((orRaise x).bind f).IssuesOnly P := by
  cases x with
  | ok a => exact hf a rfl
  | error e => exact Program.issuesOnly_raise e

/-- What a stream may ask for. -/
def StreamRequest (tmpPath destPath : PyStr) : FileRequest → Prop
  | .openWrite path | .pathExists path | .remove path => path = tmpPath
  | .replace source dest => source = tmpPath ∧ dest = destPath
  | .read | .write _ _ | .close _ => True
  | .verifyProject | .isdir _ | .rmtree _ | .makedirs _ => False

theorem StreamRequest.names {tmpPath destPath : PyStr} (htmp : C tmpPath) (hdest : C destPath)
    {q : FileRequest} (h : StreamRequest tmpPath destPath q) : Names C q := by
  cases q with
  | openWrite path | pathExists path | remove path => exact names_of_path rfl (h ▸ htmp)
  | replace source dest =>
      obtain ⟨rfl, rfl⟩ := h
      exact List.forall_mem_cons.mpr ⟨htmp, List.forall_mem_singleton.mpr hdest⟩
  | read | write _ _ | close _ => exact names_of_no_path rfl
  | verifyProject | isdir path | rmtree path | makedirs path => exact h.elim

theorem leaveNothing_requests {α : Type} (tmpPath destPath : PyStr) (e : UploadError) :
    (leaveNothing tmpPath e : Endpoint α).IssuesOnly (StreamRequest tmpPath destPath) := by
  refine Program.issuesOnly_call rfl fun found => ?_
  cases found with
  | false => exact Program.issuesOnly_raise e
  | true =>
      refine Program.issuesOnly_call rfl fun removed => ?_
      exact issuesOnly_orRaise_bind fun _ _ => Program.issuesOnly_raise e

theorem closeAndLeave_requests {α : Type} (tmpPath destPath : PyStr) (handle : ℕ)
    (e : UploadError) :
    (closeAndLeave handle tmpPath e : Endpoint α).IssuesOnly (StreamRequest tmpPath destPath) := by
  refine Program.issuesOnly_call trivial fun closed => ?_
  cases closed with
  | ok _ => exact leaveNothing_requests tmpPath destPath e
  | error e' => exact leaveNothing_requests tmpPath destPath e'

theorem finish_requests (tmpPath destPath : PyStr) (handle total : ℕ) :
    (finish tmpPath destPath handle total).IssuesOnly (StreamRequest tmpPath destPath) := by
  refine Program.issuesOnly_call trivial fun closed => ?_
  cases closed with
  | error e => exact leaveNothing_requests tmpPath destPath e
  | ok _ =>
      refine Program.issuesOnly_call ⟨rfl, rfl⟩ fun replaced => ?_
      cases replaced with
      | error e => exact leaveNothing_requests tmpPath destPath e
      | ok _ => exact Program.issuesOnly_pure total

theorem streamLoop_requests (tmpPath destPath : PyStr) (handle : ℕ) (reads : List (List UInt8))
    (total : ℕ) : (streamLoop tmpPath destPath handle reads total).IssuesOnly
      (StreamRequest tmpPath destPath) := by
  induction reads generalizing total with
  | nil =>
      refine Program.issuesOnly_call trivial fun read => ?_
      cases read with
      | error e => exact closeAndLeave_requests tmpPath destPath handle e
      | ok _ => exact finish_requests tmpPath destPath handle total
  | cons chunk rest ih =>
      refine Program.issuesOnly_call trivial fun read => ?_
      cases read with
      | error e => exact closeAndLeave_requests tmpPath destPath handle e
      | ok _ =>
          dsimp only
          split_ifs
          · exact closeAndLeave_requests tmpPath destPath handle fileTooLarge
          · refine Program.issuesOnly_call trivial fun written => ?_
            cases written with
            | error e => exact closeAndLeave_requests tmpPath destPath handle e
            | ok _ => exact ih _

theorem streamToDisk_requests (upload : Upload) (destPath : PyStr) :
    (streamToDisk upload destPath).IssuesOnly
      (StreamRequest (destPath ++ tmpSuffix) destPath) := by
  refine Program.issuesOnly_call rfl fun opened => ?_
  cases opened with
  | error e => exact leaveNothing_requests (destPath ++ tmpSuffix) destPath e
  | ok handle => exact streamLoop_requests (destPath ++ tmpSuffix) destPath handle upload.reads 0

/-- The files of a batch ask for nothing but their own streams. -/
theorem storePlanned_requests (releaseDir : PyStr) (planned : List (Upload × PyStr)) :
    (storePlanned releaseDir planned).IssuesOnly fun q => ∃ x ∈ planned,
      StreamRequest (osPathJoin releaseDir x.2 ++ tmpSuffix) (osPathJoin releaseDir x.2) q := by
  induction planned with
  | nil => exact Program.issuesOnly_pure []
  | cons x planned ih =>
      obtain ⟨upload, basename⟩ := x
      refine Program.issuesOnly_bind ?_ fun size => Program.issuesOnly_bind ?_ fun sizes =>
        Program.issuesOnly_pure _
      · exact Program.issuesOnly_mono (fun q hq => ⟨_, List.mem_cons_self, hq⟩)
          (streamToDisk_requests upload (osPathJoin releaseDir basename))
      · exact Program.issuesOnly_mono
          (fun q ⟨x, hx, hq⟩ => ⟨x, List.mem_cons_of_mem _ hx, hq⟩) ih

variable {root : PyStr} {orgId projectId : ℕ} {release d : PyStr}

theorem components (hd : releaseDirname release = .ok d) (hne : release ≠ []) {cs : Path}
    (hcs : ∀ c ∈ cs, Component c) :
    ∀ c ∈ uuidStr orgId :: uuidStr projectId :: d :: cs, Component c := by
  simp only [List.forall_mem_cons]
  exact ⟨component_uuidStr orgId, component_uuidStr projectId, component_releaseDirname hd hne, hcs⟩

theorem confined_directory (hd : releaseDirname release = .ok d) (hne : release ≠ []) :
    Confined root orgId projectId d (joinAll root [uuidStr orgId, uuidStr projectId, d]) :=
  .inl (joinAll_eq_below root (components hd hne fun c hc => by cases hc))

theorem joinAll_file (hd : releaseDirname release = .ok d) (hne : release ≠ []) {c : PyStr}
    (hc : Component c) : joinAll root [uuidStr orgId, uuidStr projectId, d, c] =
      below root [uuidStr orgId, uuidStr projectId, d, c] :=
  joinAll_eq_below root (components hd hne (List.forall_mem_singleton.mpr hc))

theorem confined_file (hd : releaseDirname release = .ok d) (hne : release ≠ [])
    {base suffix : PyStr} (hbase : FileName base) (hsuffix : suffix ∈ [[], mapSuffix, tmpSuffix]) :
    Confined root orgId projectId d
      (joinAll root [uuidStr orgId, uuidStr projectId, d, base ++ suffix]) :=
  .inr ⟨base, suffix, hbase, hsuffix, joinAll_file hd hne (hbase.component hsuffix)⟩

/-- The path a file is stored at and the one it is streamed to. -/
theorem confined_stored (hd : releaseDirname release = .ok d) (hne : release ≠ []) {base : PyStr}
    (hbase : FileName base) :
    Confined root orgId projectId d (joinAll root [uuidStr orgId, uuidStr projectId, d, base]) ∧
      Confined root orgId projectId d
        (joinAll root [uuidStr orgId, uuidStr projectId, d, base] ++ tmpSuffix) := by
  have hplain : [] ∈ [[], mapSuffix, tmpSuffix] := List.mem_cons_self
  have htmp : tmpSuffix ∈ [[], mapSuffix, tmpSuffix] := by decide
  have hcomponent := hbase.component hplain
  rw [List.append_nil] at hcomponent
  have happend (s : PyStr) : below root [uuidStr orgId, uuidStr projectId, d, base] ++ s =
      below root [uuidStr orgId, uuidStr projectId, d, base ++ s] := by
    simp [below, joinSlash]
  rw [joinAll_file hd hne hcomponent, happend]
  refine ⟨.inr ⟨base, [], hbase, hplain, by rw [List.append_nil]⟩, .inr ⟨base, tmpSuffix, ?_⟩⟩
  exact ⟨hbase, htmp, rfl⟩

theorem releaseDirectory_ok (hd : releaseDirname release = .ok d) :
    releaseDirectory root orgId projectId release =
      .pure (joinAll root [uuidStr orgId, uuidStr projectId, d]) := by
  unfold releaseDirectory releaseMapsPath
  rw [hd]
  rfl

theorem releaseDirectory_error {e : PyError} (hd : releaseDirname release = .error e) :
    releaseDirectory root orgId projectId release = .raise (.encoding e) := by
  unfold releaseDirectory releaseMapsPath
  rw [hd]
  rfl

theorem makedirs_names {path : PyStr} (h : C path) : (makedirs path).IssuesOnly (Names C) :=
  Program.issuesOnly_call (names_of_path rfl h) issuesOnly_orRaise

theorem rmtree_names {path : PyStr} (h : C path) : (rmtree path).IssuesOnly (Names C) :=
  Program.issuesOnly_call (names_of_path rfl h) issuesOnly_orRaise

theorem verifyProject_names : verifyProject.IssuesOnly (Names C) :=
  Program.issuesOnly_call (names_of_no_path rfl) Program.issuesOnly_pure

theorem isdir_names {path : PyStr} (h : C path) : (isdir path).IssuesOnly (Names C) :=
  Program.issuesOnly_call (names_of_path rfl h) Program.issuesOnly_pure

theorem deleteSourcemaps_confined (hne : release ≠ []) :
    (deleteSourcemaps root orgId projectId release).IssuesOnly
      (Names (InRelease root orgId projectId release)) := by
  have hdelete : (deleteReleaseMaps root orgId projectId release).IssuesOnly
      (Names (InRelease root orgId projectId release)) := by
    unfold deleteReleaseMaps
    cases hd : releaseDirname release with
    | error e =>
        rw [releaseDirectory_error hd, Program.bind_eq, Program.raise_bind]
        exact Program.issuesOnly_raise _
    | ok d =>
        have hdir : InRelease root orgId projectId release
            (joinAll root [uuidStr orgId, uuidStr projectId, d]) :=
          ⟨d, hd, hne, confined_directory hd hne⟩
        rw [releaseDirectory_ok hd, Program.bind_eq, Program.pure_bind]
        refine Program.issuesOnly_bind (isdir_names hdir) fun present => ?_
        split_ifs
        · exact Program.issuesOnly_pure false
        · exact Program.issuesOnly_bind (rmtree_names hdir) fun _ => Program.issuesOnly_pure true
  refine Program.issuesOnly_bind verifyProject_names fun found => ?_
  split_ifs
  · exact Program.issuesOnly_raise _
  · refine Program.issuesOnly_bind hdelete fun removed => ?_
    split_ifs
    · exact Program.issuesOnly_raise _
    · exact Program.issuesOnly_pure ()

theorem planUpload_fileName {upload : Upload} {planned : Upload × PyStr}
    (h : planUpload upload = .ok planned) : FileName planned.2 := by
  unfold planUpload at h
  cases hbase : safeBasename (upload.filename.getD []) with
  | none =>
      rw [hbase] at h
      cases h
  | some basename =>
      rw [hbase] at h
      dsimp only at h
      split_ifs at h
      cases h
      exact (safeBasename_eq_some_iff.mp hbase).2

theorem planned_fileName {files : List Upload} {planned : List (Upload × PyStr)}
    (h : files.mapM planUpload = .ok planned) : ∀ x ∈ planned, FileName x.2 := by
  rw [mapM_eq_ok] at h
  induction h with
  | nil => exact fun x hx => by cases hx
  | cons hupload _ ih => exact List.forall_mem_cons.mpr ⟨planUpload_fileName hupload, ih⟩

theorem storePlanned_confined (hd : releaseDirname release = .ok d) (hne : release ≠ [])
    {planned : List (Upload × PyStr)} (h : ∀ x ∈ planned, FileName x.2) :
    (storePlanned (joinAll root [uuidStr orgId, uuidStr projectId, d]) planned).IssuesOnly
      (Names (Confined root orgId projectId d)) := by
  refine Program.issuesOnly_mono (fun q ⟨x, hx, hq⟩ => ?_) (storePlanned_requests _ planned)
  obtain ⟨hdest, htmp⟩ := confined_stored hd hne (h x hx)
  exact hq.names htmp hdest

theorem uploadSourcemaps_confined (rt : Runtime) (raw : PyStr) (files : List Upload) :
    (uploadSourcemaps rt root orgId projectId raw files).IssuesOnly
      (Names (InRelease root orgId projectId (strip rt.isSpace raw))) := by
  unfold uploadSourcemaps
  generalize strip rt.isSpace raw = release
  dsimp only
  split_ifs with hne
  · exact Program.issuesOnly_raise _
  · exact Program.issuesOnly_raise _
  · exact Program.issuesOnly_raise _
  refine Program.issuesOnly_bind verifyProject_names fun found => ?_
  split_ifs
  · exact Program.issuesOnly_raise _
  cases hd : releaseDirname release with
  | error e =>
      rw [releaseDirectory_error hd, Program.bind_eq, Program.raise_bind]
      exact Program.issuesOnly_raise _
  | ok d =>
      rw [releaseDirectory_ok hd, Program.bind_eq, Program.pure_bind]
      refine issuesOnly_orRaise_bind fun planned hplanned => ?_
      refine Program.issuesOnly_bind (makedirs_names ?_) fun _ => ?_
      · exact ⟨d, hd, hne, confined_directory hd hne⟩
      · refine Program.issuesOnly_mono (fun q hq path hpath => ?_)
          (storePlanned_confined hd hne (planned_fileName hplanned))
        exact ⟨d, hd, hne, hq path hpath⟩

end Endpoints

/-! ## Symbolication -/

section Symbolication

variable {rt : Runtime} {files files' : Filesystem}

/-- The files that symbolication tries to open, for all frames of the chain. -/
def mapPathsOf (orgId projectId : ℕ) (envelope : Dict) : List Path :=
  match envelope.get "release" with
  | .str release =>
    match releaseMapsDir (uuidStr orgId) (uuidStr projectId) release with
    | .ok dir => (envelopeFrames envelope).flatMap (mapPaths dir)
    | .error _ => []
  | _ => []

theorem symbolicateFrames_congr {dir : Path} {frames : List Json}
    (h : ∀ path ∈ frames.flatMap (mapPaths dir), files path = files' path) :
    frames.mapM (symbolicateStackFrame rt files dir) =
      frames.mapM (symbolicateStackFrame rt files' dir) := by
  induction frames with
  | nil => rfl
  | cons frame frames ih =>
      rw [List.flatMap_cons, List.forall_mem_append] at h
      rw [List.mapM_cons, List.mapM_cons, symbolicateStackFrame_congr h.1, ih h.2]

theorem symbolicateStacktrace_congr {orgId projectId release : PyStr} {d : Dict}
    (h : ∀ dir, releaseMapsDir orgId projectId release = .ok dir →
      ∀ path ∈ (frameList d).flatMap (mapPaths dir), files path = files' path) :
    symbolicateStacktrace rt files orgId projectId release d =
      symbolicateStacktrace rt files' orgId projectId release d := by
  unfold frameList at h
  unfold symbolicateStacktrace
  cases hst : d.get "stacktrace" with
  | obj stacktrace =>
      rw [hst] at h
      dsimp only at h ⊢
      cases hframes : Dict.get stacktrace "frames" with
      | arr frames =>
          rw [hframes] at h
          dsimp only at h ⊢
          cases hdir : releaseMapsDir orgId projectId release with
          | error e => rfl
          | ok dir =>
              have hframes' : frames.mapM (symbolicateStackFrame rt files dir) = _ :=
                symbolicateFrames_congr (h dir hdir)
              simp only [bind, Except.bind, hframes']
      | _ => rfl
  | _ => rfl

theorem symbolicateException_congr {orgId projectId release : PyStr} {d : Dict}
    (h : ∀ dir, releaseMapsDir orgId projectId release = .ok dir →
      ∀ path ∈ ((causeChain d).flatMap frameList).flatMap (mapPaths dir),
        files path = files' path) :
    symbolicateException rt files orgId projectId release d =
      symbolicateException rt files' orgId projectId release d := by
  induction d using causeChain.induct with
  | case1 d cause hcause _ ih =>
      rw [causeChain_cause hcause] at h
      simp only [List.flatMap_cons, List.flatMap_append, List.forall_mem_append] at h
      have htop : symbolicateStacktrace rt files orgId projectId release d = _ :=
        symbolicateStacktrace_congr fun dir hdir => (h dir hdir).1
      have hrest := ih fun dir hdir => (h dir hdir).2
      rw [symbolicateException, symbolicateException, htop]
      split
      · next c hc =>
          obtain rfl : cause = c := Json.obj.inj (hcause.symm.trans hc)
          rw [hrest]
      · rfl
  | case2 d hroot =>
      rw [causeChain_root hroot] at h
      simp only [List.flatMap_cons, List.flatMap_nil, List.append_nil] at h
      rw [symbolicateException, symbolicateException, symbolicateStacktrace_congr h]
      split
      · next c hc => exact absurd hc (hroot c)
      · rfl

/-- No other file has a say in what becomes of the envelope. -/
theorem symbolicateEnvelope_congr {orgId projectId : ℕ} {envelope : Dict}
    (h : ∀ path ∈ mapPathsOf orgId projectId envelope, files path = files' path) :
    symbolicateEnvelope rt files envelope (uuidStr orgId) (uuidStr projectId) =
      symbolicateEnvelope rt files' envelope (uuidStr orgId) (uuidStr projectId) := by
  unfold symbolicateEnvelope
  split
  · next platform exception c release hplatform hexc hrelease =>
      have hexception : symbolicateException rt files (uuidStr orgId) (uuidStr projectId)
          (c :: release) exception = symbolicateException rt files' (uuidStr orgId)
            (uuidStr projectId) (c :: release) exception := by
        refine symbolicateException_congr fun dir hdir => ?_
        simpa only [mapPathsOf, hrelease, hdir, envelopeFrames, hexc] using h
      rw [hexception]
  · rfl

theorem fileName_of_frame {filename : Json} {base : PyStr}
    (h : basenameFromFrameFilename filename = some base) : FileName base := by
  cases filename with
  | str url => exact (basenameFromFrameFilename_eq_some_iff.mp h).2
  | _ => cases h

/-- What is tried for a frame is a file name, with or without the suffix, in the directory. -/
theorem mem_mapPaths {dir path : Path} {frame : Json} (h : path ∈ mapPaths dir frame) :
    ∃ base suffix, FileName base ∧ suffix ∈ [[], mapSuffix, tmpSuffix] ∧
      path = dir ++ [base ++ suffix] := by
  cases frame with
  | obj frame =>
      rw [mapPaths] at h
      cases hbase : basenameFromFrameFilename (Dict.get frame "filename") with
      | none =>
          rw [hbase] at h
          cases h
      | some base =>
          rw [hbase] at h
          obtain ⟨candidate, hcandidate, rfl⟩ := List.mem_map.mp h
          have hname := fileName_of_frame hbase
          have hmap : mapSuffix ∈ [[], mapSuffix, tmpSuffix] := by decide
          unfold mapCandidates at hcandidate
          split_ifs at hcandidate
          · obtain rfl := List.mem_singleton.mp hcandidate
            exact ⟨candidate, [], hname, List.mem_cons_self, by rw [List.append_nil]⟩
          · obtain rfl := List.mem_singleton.mp hcandidate
            exact ⟨base, mapSuffix, hname, hmap, rfl⟩
  | _ => cases h

theorem mapPathsOf_confined {root release : PyStr} {orgId projectId : ℕ} {envelope : Dict}
    (hrelease : envelope.get "release" = .str release) (hne : release ≠ []) :
    ∀ path ∈ mapPathsOf orgId projectId envelope,
      InRelease root orgId projectId release (joinAll root path) := by
  intro path hpath
  rw [mapPathsOf, hrelease] at hpath
  dsimp only [releaseMapsDir] at hpath
  cases hd : releaseDirname release with
  | error e =>
      rw [hd] at hpath
      cases hpath
  | ok d =>
      rw [hd] at hpath
      obtain ⟨frame, -, hframe⟩ := List.mem_flatMap.mp hpath
      obtain ⟨base, suffix, hbase, hsuffix, rfl⟩ := mem_mapPaths hframe
      exact ⟨d, hd, hne, confined_file hd hne hbase hsuffix⟩

/-- Every path that the endpoints and the symbolication name is the directory of the release or a
file right in it, the directory has a safe name, and no other release has the same. -/
theorem paths_confined (rt : Runtime) (root : PyStr) (orgId projectId : ℕ) {release : PyStr}
    (hutf8 : release.Encodable) (hne : release ≠ []) :
    (∃ d, releaseDirname release = .ok d ∧ d ≠ [] ∧ (∀ c ∈ d, isDirnameChar c = true) ∧
      ∀ release', release' ≠ release → releaseDirname release' ≠ .ok d) ∧
    (∀ raw files, strip rt.isSpace raw = release →
      (uploadSourcemaps rt root orgId projectId raw files).IssuesOnly
        (Names (InRelease root orgId projectId release))) ∧
    (deleteSourcemaps root orgId projectId release).IssuesOnly
      (Names (InRelease root orgId projectId release)) ∧
    ∀ envelope : Dict, envelope.get "release" = .str release →
      (∀ path ∈ mapPathsOf orgId projectId envelope,
        InRelease root orgId projectId release (joinAll root path)) ∧
      ∀ files files' : Filesystem,
        (∀ path ∈ mapPathsOf orgId projectId envelope, files path = files' path) →
          symbolicateEnvelope rt files envelope (uuidStr orgId) (uuidStr projectId) =
            symbolicateEnvelope rt files' envelope (uuidStr orgId) (uuidStr projectId) := by
  obtain ⟨d, hd⟩ := releaseDirname_ok hutf8
  obtain ⟨hchars, hnonempty⟩ := releaseDirname_spec hd
  refine ⟨⟨d, hd, hnonempty hne, hchars, ?_⟩, ?_, deleteSourcemaps_confined hne, ?_⟩
  · exact fun release' hother hsame => hother (releaseDirname_injective hsame hd)
  · rintro raw files rfl
    exact uploadSourcemaps_confined rt raw files
  · intro envelope hrelease
    exact ⟨mapPathsOf_confined hrelease hne, fun files files' => symbolicateEnvelope_congr⟩

/-- A file of the release `a/../b`, uploaded with a blank before the release, and its removal. -/
theorem dotted_release_confined :
    releaseDirname (py "a/../b") = .ok (py "YS8uLi9i") ∧
      (uploadSourcemaps sampleRuntime (py "/data") 1 2 (py " a/../b")
        [⟨some (py "../app.js.map"), [[1]], by decide, by decide⟩]).IssuesOnly
        (Names (InRelease (py "/data") 1 2 (py "a/../b"))) ∧
      (deleteSourcemaps (py "/data") 1 2 (py "a/../b")).IssuesOnly
        (Names (InRelease (py "/data") 1 2 (py "a/../b"))) := by
  have hne : py "a/../b" ≠ [] := by decide
  have hstrip : strip sampleRuntime.isSpace (py " a/../b") = py "a/../b" := by decide +kernel
  obtain ⟨-, hupload, hdelete, -⟩ :=
    paths_confined sampleRuntime (py "/data") 1 2 (py_encodable "a/../b") hne
  exact ⟨by decide +kernel, hupload _ _ hstrip, hdelete⟩

end Symbolication

end Crashlens
