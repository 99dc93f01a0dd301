import Crashlens.Library.OpenFiles
import Crashlens.Library.Transition
import Crashlens.SourcemapUpload
import Mathlib.Data.Fintype.Basic

/-!
# Uploads of one map at the same time

Any number of handlers stream a file of the same release and basename, so to the same destination
and through the same temporary file. A handler runs from one read of its upload to the next without
a break; at a read another one may go on, or the client may go away. How much of its buffer a handle
flushes at a write is left open, and nothing but a missing file makes the operating system fail.
-/

set_option linter.unusedSectionVars false

namespace Crashlens.UploadRace

open Transactional OpenFiles

/-- The answer to a request other than a read, which waits; a stream makes no further ones. -/
def answer (flushed : ℕ) : (q : FileRequest) → Disk PyStr → Option (q.Resp × Disk PyStr)
  | .openWrite path, d => some (.ok (d.openWrite path).1, (d.openWrite path).2)
  | .write handle chunk, d => some (.ok (), d.write handle chunk flushed)
  | .close handle, d => some (.ok (), d.close handle)
  | .replace source dest, d =>
    match d.replace source dest with
    | some d' => some (.ok (), d')
    | none => some (.error .fileNotFound, d)
  | .pathExists path, d => some ((d.names path).isSome, d)
  | .remove path, d =>
    match d.remove path with
    | some d' => some (.ok (), d')
    | none => some (.error .fileNotFound, d)
  | _, _ => none

inductive Task where
  | waiting
  | running (p : Endpoint ℕ)
  | stored (size : ℕ)
  | failed (e : UploadError)

def Task.isRunning : Task → Bool
  | .running _ => true
  | _ => false

/-- A handler goes on to its next read or to its end. -/
def advance (flushed : ℕ) : Endpoint ℕ → Disk PyStr → Task × Disk PyStr
  | .pure size, d => (.stored size, d)
  | .raise e, d => (.failed e, d)
  | .call q next, d =>
    match answer flushed q d with
    | some (r, d') => advance flushed (next r) d'
    | none => (.running (.call q next), d)

inductive Action (ι : Type) where
  | start (i : ι)
  | resume (i : ι) (flushed : ℕ)
  | interrupt (i : ι)

structure State (ι : Type) where
  task : ι → Task
  disk : Disk PyStr

section Runs

variable {ι : Type} [DecidableEq ι]

def State.set (s : State ι) (i : ι) (r : Task × Disk PyStr) : State ι :=
  ⟨Function.update s.task i r.1, r.2⟩

/-- The read of a handler gives its answer. -/
def onRead (s : State ι) (i : ι) (flushed : ℕ) (read : Except UploadError Unit) :
    Option (State ι) :=
  match s.task i with
  | .running (.call .read next) => some (s.set i (advance flushed (next read) s.disk))
  | _ => none

variable (uploads : ι → Upload) (destPath : PyStr)

def step (s : State ι) : Action ι → Option (State ι)
  | .start i =>
    match s.task i with
    | .waiting => some (s.set i (advance 0 (streamToDisk (uploads i) destPath) s.disk))
    | _ => none
  | .resume i flushed => onRead s i flushed (.ok ())
  | .interrupt i => onRead s i 0 (.error .interrupted)

def start (files : PyStr → Option (List UInt8)) : State ι := ⟨fun _ => .waiting, .ofFiles files⟩

/-! ## What uploads may expect -/

/-- The upload fails for a reason of its own. -/
def OwnFault (upload : Upload) (e : UploadError) : Prop :=
  e = .interrupted ∨ e = fileTooLarge ∧ maxFileBytes < upload.content.length

def Idle (s : State ι) : Prop := ∀ i, (s.task i).isRunning = false

def SomeStored (s : State ι) : Prop := ∃ i size, s.task i = .stored size

/-- The stored file is the content of an upload that succeeded. -/
def StoredWhole (s : State ι) : Prop :=
  ∃ i size, s.task i = .stored size ∧ s.disk.content destPath = some (uploads i).content

/-- No upload fails because of another, and once all have ended the file is one of them. -/
structure KeptApart (s : State ι) : Prop where
  ownFault : ∀ i e, s.task i = .failed e → OwnFault (uploads i) e
  whole : Idle s → SomeStored s → StoredWhole uploads destPath s

/-- An upload begins only while no other one is being streamed. -/
def Alone (s : State ι) : Action ι → Prop
  | .start _ => Idle s
  | _ => True

instance [Fintype ι] (s : State ι) : DecidablePred (Alone s)
  | .start _ => inferInstanceAs (Decidable (∀ i, (s.task i).isRunning = false))
  | .resume _ _ => .isTrue trivial
  | .interrupt _ => .isTrue trivial

end Runs

/-! ## One handler on its own file -/

section Handler

variable {d : Disk PyStr} {upload : Upload} {destPath : PyStr} {flushed handle : ℕ}
  {inode : Inode PyStr} {bytes : List UInt8}

theorem advance_call {q : FileRequest} {next : q.Resp → Endpoint ℕ} {d d' : Disk PyStr}
    {r : q.Resp} (h : answer flushed q d = some (r, d')) :
    advance flushed (.call q next) d = advance flushed (next r) d' := by rw [advance, h]

theorem advance_streamLoop (tmpPath : PyStr) (rest : List (List UInt8)) (total : ℕ) :
    advance flushed (streamLoop tmpPath destPath handle rest total) d =
      (.running (streamLoop tmpPath destPath handle rest total), d) := by
  cases rest with
  | nil => rfl
  | cons chunk rest => rfl

theorem tmpPath_ne (destPath : PyStr) : destPath ≠ destPath ++ tmpSuffix := by
  intro h
  have hlength := congrArg List.length h
  have hsuffix : tmpSuffix.length = 4 := by decide
  rw [List.length_append] at hlength
  omega

/-- The loop is at a read, and what it has read so far is in its temporary file or the buffer. -/
structure Streaming (upload : Upload) (destPath : PyStr) (d : Disk PyStr) (handle : ℕ)
    (rest : List (List UInt8)) (inode : Inode PyStr) (bytes : List UInt8) : Prop where
  tmp : d.names (destPath ++ tmpSuffix) = some inode
  given : d.Given handle inode bytes
  content : bytes ++ rest.flatten = upload.content

/-- Where the handler of an upload is after it has gone on from the disk `d`. -/
inductive Progress (upload : Upload) (destPath : PyStr) (d : Disk PyStr) :
    Task × Disk PyStr → Prop where
  | streaming {d' : Disk PyStr} {handle : ℕ} {rest : List (List UInt8)} {inode : Inode PyStr}
      {bytes : List UInt8} (hsound : d'.Sound)
      (hloop : Streaming upload destPath d' handle rest inode bytes)
      (hdest : d'.content destPath = d.content destPath) :
      Progress upload destPath d
        (.running (streamLoop (destPath ++ tmpSuffix) destPath handle rest bytes.length), d')
  | failed {d' : Disk PyStr} {e : UploadError} (hsound : d'.Sound) (hown : OwnFault upload e)
      (hdest : d'.content destPath = d.content destPath) :
      Progress upload destPath d (.failed e, d')
  | stored {d' : Disk PyStr} {size : ℕ} (hsound : d'.Sound)
      (hdest : d'.content destPath = some upload.content) :
      Progress upload destPath d (.stored size, d')

theorem advance_streamToDisk (hs : d.Sound) :
    Progress upload destPath d (advance flushed (streamToDisk upload destPath) d) := by
  obtain ⟨inode, htmp, hgiven, hsound, hcontent⟩ :=
    Disk.openWrite_spec hs (destPath ++ tmpSuffix)
  have hopen : advance flushed (streamToDisk upload destPath) d =
      advance flushed (streamLoop (destPath ++ tmpSuffix) destPath
        (d.openWrite (destPath ++ tmpSuffix)).1 upload.reads 0)
        (d.openWrite (destPath ++ tmpSuffix)).2 := rfl
  rw [hopen, advance_streamLoop]
  have hloop : Streaming upload destPath (d.openWrite (destPath ++ tmpSuffix)).2
      (d.openWrite (destPath ++ tmpSuffix)).1 upload.reads inode [] := ⟨htmp, hgiven, rfl⟩
  exact .streaming hsound hloop (hcontent _ (tmpPath_ne destPath))

theorem advance_closeAndLeave (hs : d.Sound) {e : UploadError}
    (htmp : d.names (destPath ++ tmpSuffix) = some inode) (hgiven : d.Given handle inode bytes)
    (hown : OwnFault upload e) :
    Progress upload destPath d
      (advance flushed (closeAndLeave handle (destPath ++ tmpSuffix) e) d) := by
  have hne := tmpPath_ne destPath
  obtain ⟨-, hwrites⟩ := Disk.data_close hgiven
  have hsound := hwrites.sound hs
  have hname : (d.close handle).names (destPath ++ tmpSuffix) = some inode := by
    rw [hwrites.names, htmp]
  obtain ⟨d', hremove, hsound', hcontent⟩ := Disk.remove_spec hsound hname
  have hleave : advance flushed (closeAndLeave handle (destPath ++ tmpSuffix) e) d =
      (.failed e, d') := by
    have hfound : answer flushed (.pathExists (destPath ++ tmpSuffix)) (d.close handle) =
        some (true, d.close handle) := by
      rw [answer, hname]
      rfl
    have hremoved : answer flushed (.remove (destPath ++ tmpSuffix)) (d.close handle) =
        some (.ok (), d') := by
      rw [answer, hremove]
    calc advance flushed (closeAndLeave handle (destPath ++ tmpSuffix) e) d
        = advance flushed (leaveNothing (destPath ++ tmpSuffix) e) (d.close handle) := rfl
      _ = advance flushed ((remove (destPath ++ tmpSuffix)).bind fun _ => .raise e)
          (d.close handle) := advance_call hfound
      _ = (.failed e, d') := advance_call hremoved
  rw [hleave]
  exact .failed hsound' hown ((hcontent _ hne).trans (hwrites.content hs htmp hne))

theorem advance_finish (hs : d.Sound) (htmp : d.names (destPath ++ tmpSuffix) = some inode)
    (hgiven : d.Given handle inode upload.content) (total : ℕ) :
    Progress upload destPath d
      (advance flushed (finish (destPath ++ tmpSuffix) destPath handle total) d) := by
  obtain ⟨hdata, hwrites⟩ := Disk.data_close hgiven
  have hname : (d.close handle).names (destPath ++ tmpSuffix) = some inode := by
    rw [hwrites.names, htmp]
  obtain ⟨d', hreplace, hsound, hcontent, -⟩ :=
    Disk.replace_spec (hwrites.sound hs) destPath hname
  rw [hdata] at hcontent
  have hfinish : advance flushed (finish (destPath ++ tmpSuffix) destPath handle total) d =
      (.stored total, d') := by
    have hreplaced : answer flushed (.replace (destPath ++ tmpSuffix) destPath) (d.close handle) =
        some (.ok (), d') := by
      rw [answer, hreplace]
    exact advance_call hreplaced
  rw [hfinish]
  exact .stored hsound hcontent

theorem ownFault_tooLarge {rest : List (List UInt8)} {chunk : List UInt8}
    (hcontent : bytes ++ (chunk :: rest).flatten = upload.content)
    (hlarge : maxFileBytes < bytes.length + chunk.length) : OwnFault upload fileTooLarge := by
  refine .inr ⟨rfl, ?_⟩
  rw [← hcontent, List.flatten_cons, List.length_append, List.length_append]
  omega

/-- From one read to the next, or to the end. -/
theorem onRead_progress {ι : Type} [DecidableEq ι] {s : State ι} {i : ι}
    {rest : List (List UInt8)} (hs : s.disk.Sound)
    (hloop : Streaming upload destPath s.disk handle rest inode bytes)
    (htask : s.task i = .running
      (streamLoop (destPath ++ tmpSuffix) destPath handle rest bytes.length))
    {read : Except UploadError Unit} (hread : read = .ok () ∨ read = .error .interrupted) :
    ∃ r, onRead s i flushed read = some (s.set i r) ∧ Progress upload destPath s.disk r := by
  obtain ⟨htmp, hgiven, hcontent⟩ := hloop
  have hinterrupted : Progress upload destPath s.disk
      (advance flushed (closeAndLeave handle (destPath ++ tmpSuffix) .interrupted) s.disk) :=
    advance_closeAndLeave hs htmp hgiven (.inl rfl)
  unfold onRead
  rw [htask]
  cases rest with
  | nil =>
      rw [List.flatten_nil, List.append_nil] at hcontent
      refine ⟨_, rfl, ?_⟩
      obtain rfl | rfl := hread
      · exact advance_finish hs htmp (hcontent ▸ hgiven) bytes.length
      · exact hinterrupted
  | cons chunk rest =>
      refine ⟨_, rfl, ?_⟩
      obtain rfl | rfl := hread
      · dsimp only
        split_ifs with hlarge
        · exact advance_closeAndLeave hs htmp hgiven (ownFault_tooLarge hcontent hlarge)
        · obtain ⟨hgiven', hwrites⟩ := Disk.given_write hgiven chunk flushed
          change Progress upload destPath s.disk
            (advance flushed (streamLoop (destPath ++ tmpSuffix) destPath handle rest
              (bytes.length + chunk.length)) (s.disk.write handle chunk flushed))
          rw [advance_streamLoop, ← List.length_append]
          refine .streaming (hwrites.sound hs) ⟨hwrites.names ▸ htmp, hgiven', ?_⟩
            (hwrites.content hs htmp (tmpPath_ne destPath))
          rw [List.append_assoc, ← List.flatten_cons, hcontent]
      · exact hinterrupted

end Handler

/-! ## Any number of handlers -/

section Handlers

variable {ι : Type} [DecidableEq ι] {uploads : ι → Upload} {destPath : PyStr} {s s' : State ι}

def OthersStill (s : State ι) (i : ι) : Prop := ∀ j, j ≠ i → (s.task j).isRunning = false

/-- At most one handler is at a read, and it has its temporary file to itself. -/
structure Inv (uploads : ι → Upload) (destPath : PyStr) (s : State ι) : Prop where
  sound : s.disk.Sound
  ownFault : ∀ i e, s.task i = .failed e → OwnFault (uploads i) e
  whole : SomeStored s → StoredWhole uploads destPath s
  alone : Idle s ∨ ∃ i handle rest inode bytes,
    s.task i = .running (streamLoop (destPath ++ tmpSuffix) destPath handle rest bytes.length) ∧
    Streaming (uploads i) destPath s.disk handle rest inode bytes ∧ OthersStill s i

theorem task_set_self (s : State ι) (i : ι) (r : Task × Disk PyStr) :
    (s.set i r).task i = r.1 := Function.update_self ..

theorem task_set_ne (s : State ι) {i j : ι} (h : j ≠ i) (r : Task × Disk PyStr) :
    (s.set i r).task j = s.task j := Function.update_of_ne h ..

/-- Where the handler that goes on has not ended, the stored file stays as it was. -/
theorem whole_set {i : ι} {r : Task × Disk PyStr} (hnot : ∀ size, s.task i ≠ .stored size)
    (hr : ∀ size, r.1 ≠ .stored size) (hdest : r.2.content destPath = s.disk.content destPath)
    (h : SomeStored s → StoredWhole uploads destPath s) :
    SomeStored (s.set i r) → StoredWhole uploads destPath (s.set i r) := by
  rintro ⟨j, size, hj⟩
  have hji : j ≠ i := by
    rintro rfl
    rw [task_set_self] at hj
    exact hr size hj
  rw [task_set_ne s hji] at hj
  obtain ⟨k, size', hk, hcontent⟩ := h ⟨j, size, hj⟩
  have hki : k ≠ i := by
    rintro rfl
    exact hnot size' hk
  exact ⟨k, size', (task_set_ne s hki r).trans hk, hdest.trans hcontent⟩

theorem inv_set {i : ι} {r : Task × Disk PyStr} (hinv : Inv uploads destPath s)
    (hothers : OthersStill s i) (hnot : ∀ size, s.task i ≠ .stored size)
    (hr : Progress (uploads i) destPath s.disk r) : Inv uploads destPath (s.set i r) := by
  have hold {j : ι} {e : UploadError} (hj : j ≠ i) (h : (s.set i r).task j = .failed e) :
      OwnFault (uploads j) e := hinv.ownFault j e ((task_set_ne s hj r).symm.trans h)
  have hstill : OthersStill (s.set i r) i := fun j hj => by
    rw [task_set_ne s hj]
    exact hothers j hj
  have hown (hi : ∀ e, r.1 = .failed e → OwnFault (uploads i) e) :
      ∀ j e, (s.set i r).task j = .failed e → OwnFault (uploads j) e := by
    intro j e h
    by_cases hj : j = i
    · subst hj
      exact hi e ((task_set_self s j r).symm.trans h)
    · exact hold hj h
  have hidle (hi : r.1.isRunning = false) : Idle (s.set i r) := by
    intro j
    by_cases hj : j = i
    · subst hj
      rw [task_set_self]
      exact hi
    · exact hstill j hj
  cases hr with
  | streaming hsound hloop hdest =>
      refine ⟨hsound, hown (fun e h => by cases h), ?_, .inr ?_⟩
      · exact whole_set hnot (fun _ h => by cases h) hdest hinv.whole
      · exact ⟨i, _, _, _, _, task_set_self s i _, hloop, hstill⟩
  | failed hsound hfault hdest =>
      refine ⟨hsound, hown (fun e h => Task.failed.inj h ▸ hfault), ?_, .inl ?_⟩
      · exact whole_set hnot (fun _ h => by cases h) hdest hinv.whole
      · exact hidle rfl
  | stored hsound hdest =>
      refine ⟨hsound, hown (fun e h => by cases h), fun _ => ?_, .inl ?_⟩
      · exact ⟨i, _, task_set_self s i _, hdest⟩
      · exact hidle rfl

theorem inv_start (files : PyStr → Option (List UInt8)) :
    Inv uploads destPath (start files : State ι) where
  sound := Disk.sound_ofFiles files
  ownFault _ _ h := by cases h
  whole h := by
    obtain ⟨_, _, h⟩ := h
    cases h
  alone := .inl fun _ => rfl

/-- A read that gives its answer is one of the handler that is streaming. -/
theorem inv_onRead {i : ι} {flushed : ℕ} {read : Except UploadError Unit}
    (hinv : Inv uploads destPath s) (hread : read = .ok () ∨ read = .error .interrupted)
    (h : onRead s i flushed read = some s') : Inv uploads destPath s' := by
  have hrunning : (s.task i).isRunning = true := by
    unfold onRead at h
    split at h
    · next htask =>
        rw [htask]
        rfl
    · cases h
  obtain hidle | ⟨j, handle, rest, inode, bytes, htask, hloop, hothers⟩ := hinv.alone
  · exact absurd (hidle i) (by simp [hrunning])
  · have hij : i = j := by
      by_contra hne
      exact absurd (hothers i hne) (by simp [hrunning])
    subst hij
    obtain ⟨r, hr, hprogress⟩ := onRead_progress hinv.sound hloop htask hread
    obtain rfl := Option.some.inj (hr.symm.trans h)
    exact inv_set hinv hothers (fun size h => by cases htask.symm.trans h) hprogress

theorem inv_step {a : Action ι} (hinv : Inv uploads destPath s) (halone : Alone s a)
    (h : step uploads destPath s a = some s') : Inv uploads destPath s' := by
  cases a with
  | start i =>
      rw [step] at h
      split at h
      · next htask =>
          obtain rfl := Option.some.inj h
          exact inv_set hinv (fun j _ => halone j) (fun size h => by cases htask.symm.trans h)
            (advance_streamToDisk hinv.sound)
      · cases h
  | resume i flushed => exact inv_onRead hinv (.inl rfl) h
  | interrupt i => exact inv_onRead hinv (.inr rfl) h

/-- In a run in which no upload begins while another is being streamed, no upload fails because of
another, and the stored file is one that was uploaded. -/
theorem uploads_kept_apart (uploads : ι → Upload) (destPath : PyStr)
    (files : PyStr → Option (List UInt8)) (acts : List (Action ι)) (s : State ι)
    (hrun : run (step uploads destPath) (start files) acts = some s)
    (halone : Along (step uploads destPath) Alone (start files) acts) :
    KeptApart uploads destPath s := by
  have hinv : Inv uploads destPath s :=
    run_invariant_of_along (fun _ _ _ hinv => inv_step hinv) (inv_start files) halone hrun
  exact ⟨hinv.ownFault, fun _ => hinv.whole⟩

end Handlers

/-! ## Two handlers at once -/

/-- Two maps under one name, of two bytes and of one. -/
def twoUploads : Fin 2 → Upload
  | 0 => ⟨some (py "app.js.map"), [[1, 2]], by decide, by decide⟩
  | 1 => ⟨some (py "app.js.map"), [[3]], by decide, by decide⟩

/-- The one after the other. -/
def inTurn : List (Action (Fin 2)) :=
  [.start 0, .resume 0 0, .resume 0 0, .start 1, .resume 1 0, .resume 1 0]

/-- The second begins before the first has read anything. -/
def overlapping : List (Action (Fin 2)) :=
  [.start 0, .start 1, .resume 0 0, .resume 1 0, .resume 0 0, .resume 1 0]

def Task.result : Task → Option (Except UploadError ℕ)
  | .stored size => some (.ok size)
  | .failed e => some (.error e)
  | _ => none

theorem Task.result_stored {t : Task} {size : ℕ} (h : t.result = some (.ok size)) :
    t = .stored size := by
  cases t with
  | stored size' =>
      cases h
      rfl
  | _ => cases h

theorem Task.result_failed {t : Task} {e : UploadError} (h : t.result = some (.error e)) :
    t = .failed e := by
  cases t with
  | failed e' =>
      cases h
      rfl
  | _ => cases h

/-- The first answers with success, the second fails for want of the temporary file, and what is
stored is the byte of the second before the last of the first. -/
theorem overlapping_uploads_mix :
    ∃ s, run (step twoUploads (py "app.js.map")) (start fun _ => none) overlapping = some s ∧
      ¬ (∀ i e, s.task i = .failed e → OwnFault (twoUploads i) e) ∧
      ¬ (Idle s → SomeStored s → StoredWhole twoUploads (py "app.js.map") s) := by
  have hend : (run (step twoUploads (py "app.js.map")) (start fun _ => none) overlapping).map
      (fun s => ((s.task 0).result, (s.task 1).result, s.disk.content (py "app.js.map"))) =
      some (some (.ok 2), some (.error .fileNotFound), some [3, 2]) := by decide +kernel
  obtain ⟨s, hrun, hs⟩ := Option.map_eq_some_iff.mp hend
  obtain ⟨hfirst, hsecond, hcontent⟩ := Prod.mk.inj hs |>.imp_right Prod.mk.inj
  have hfirst := Task.result_stored hfirst
  have hsecond := Task.result_failed hsecond
  refine ⟨s, hrun, fun h => ?_, fun h => ?_⟩
  · obtain hcase | ⟨hcase, -⟩ := h 1 _ hsecond
    · cases hcase
    · cases hcase
  · have hidle : Idle s := by
      intro i
      obtain rfl | rfl : i = 0 ∨ i = 1 := by omega
      · rw [hfirst]
        rfl
      · rw [hsecond]
        rfl
    obtain ⟨i, size, hi, hwhole⟩ := h hidle ⟨0, 2, hfirst⟩
    obtain rfl | rfl : i = 0 ∨ i = 1 := by omega
    · have hmixed : some [3, 2] ≠ some (twoUploads 0).content := by decide
      exact hmixed (hcontent.symm.trans hwhole)
    · cases hsecond.symm.trans hi

/-- The same uploads, the one after the other. -/
theorem uploads_in_turn_kept_apart :
    ∃ s, run (step twoUploads (py "app.js.map")) (start fun _ => none) inTurn = some s ∧
      s.disk.content (py "app.js.map") = some [3] ∧
      KeptApart twoUploads (py "app.js.map") s := by
  have hend : (run (step twoUploads (py "app.js.map")) (start fun _ => none) inTurn).map
      (fun s => s.disk.content (py "app.js.map")) = some (some [3]) := by decide +kernel
  obtain ⟨s, hrun, hs⟩ := Option.map_eq_some_iff.mp hend
  exact ⟨s, hrun, hs, uploads_kept_apart _ _ _ _ _ hrun (by decide +kernel)⟩

end Crashlens.UploadRace
