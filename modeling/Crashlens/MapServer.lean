import Crashlens.UploadRace

/-!
# The file system an upload meets

A server answers the requests of the endpoints one after the other: the disk, the directories that
are there and the project of the caller. One operation of a stream may fail, at any point: a read
because the client has gone, any other because the operating system refuses it. Where a stream is
not finished nothing but its temporary file has been touched, and where it is the map is whole.
-/

namespace Crashlens

open Transactional OpenFiles UploadRace

/-- `fault` operations of a stream go well before one fails. -/
structure MapServer where
  disk : Disk PyStr
  dirs : PyStr → Bool
  inOrg : Bool
  fault : Option ℕ

/-- The directory itself and what is below it. -/
def within (dir path : PyStr) : Bool := path = dir || (dir ++ [slash]).isPrefixOf path

namespace MapServer

/-- Nothing is open, and what is stored is given. -/
def start (files : PyStr → Option (List UInt8)) (dirs : PyStr → Bool) (inOrg : Bool)
    (fault : Option ℕ) : MapServer := ⟨.ofFiles files, dirs, inOrg, fault⟩

def makedirs (s : MapServer) (path : PyStr) : MapServer :=
  { s with dirs p := s.dirs p || within p path }

def rmtree (s : MapServer) (path : PyStr) : MapServer :=
  { s with
    disk := { s.disk with names p := if within path p then none else s.disk.names p }
    dirs p := s.dirs p && !within path p }

/-- An operation of a stream, if it is not the one that fails. -/
def attempt {α : Type} (s : MapServer) (e : UploadError)
    (effect : Disk PyStr → Option (Except UploadError α × Disk PyStr)) :
    Except UploadError (Except UploadError α) × MapServer :=
  match s.fault with
  | some 0 => (.ok (.error e), { s with fault := none })
  | fault =>
    match effect s.disk with
    | some (r, d) => (.ok r, { s with disk := d, fault := fault.map (· - 1) })
    | none => (.error .os, s)

/-- `flushed` is how much of its buffer a handle flushes at a write. -/
def serve (flushed : Disk PyStr → ℕ) :
    (q : FileRequest) → MapServer → Except UploadError q.Resp × MapServer
  | .verifyProject, s => (.ok s.inOrg, s)
  | .isdir path, s => (.ok (s.dirs path), s)
  | .makedirs path, s => (.ok (.ok ()), s.makedirs path)
  | .rmtree path, s =>
    if s.dirs path then (.ok (.ok ()), s.rmtree path) else (.ok (.error .fileNotFound), s)
  | .read, s => s.attempt .interrupted fun d => some (.ok (), d)
  | .openWrite path, s => s.attempt .os fun d => UploadRace.answer (flushed d) (.openWrite path) d
  | .write handle chunk, s =>
    s.attempt .os fun d => UploadRace.answer (flushed d) (.write handle chunk) d
  | .close handle, s => s.attempt .os fun d => UploadRace.answer (flushed d) (.close handle) d
  | .replace source dest, s =>
    s.attempt .os fun d => UploadRace.answer (flushed d) (.replace source dest) d
  | .pathExists path, s => (.ok (s.disk.names path).isSome, s)
  | .remove path, s =>
    match s.disk.remove path with
    | some d => (.ok (.ok ()), { s with disk := d })
    | none => (.ok (.error .fileNotFound), s)

theorem eval_verifyProject {α : Type} (flushed : Disk PyStr → ℕ) (s : MapServer)
    (next : Bool → Endpoint α) :
    (verifyProject.bind next).eval (serve flushed) s = (next s.inOrg).eval (serve flushed) s := rfl

end MapServer

/-! ## Faults -/

section Faults

/-- The fault comes after `n` operations. -/
def survives (fault : Option ℕ) (n : ℕ) : Bool :=
  match fault with
  | some k => n ≤ k
  | none => true

def spend (fault : Option ℕ) (n : ℕ) : Option ℕ := fault.map (· - n)

theorem survives_zero (fault : Option ℕ) : survives fault 0 = true := by
  cases fault with
  | none => rfl
  | some k => exact decide_eq_true (Nat.zero_le k)

theorem survives_add {fault : Option ℕ} (h : fault ≠ some 0) (n : ℕ) :
    survives fault (n + 1) = survives (spend fault 1) n := by
  cases fault with
  | none => rfl
  | some k =>
      have hk : k ≠ 0 := fun hk => h (congrArg some hk)
      rw [spend, Option.map_some, survives, survives, decide_eq_decide]
      omega

theorem not_survives {fault : Option ℕ} (h : fault = some 0) (n : ℕ) :
    survives fault (n + 1) = false := by
  rw [h]
  exact decide_eq_false (Nat.not_succ_le_zero n)

theorem spend_spend (fault : Option ℕ) (m n : ℕ) :
    spend (spend fault m) n = spend fault (m + n) := by
  cases fault with
  | none => rfl
  | some k => exact congrArg some (Nat.sub_sub k m n)

variable {α : Type} {s : MapServer} (e : UploadError)
  (effect : Disk PyStr → Option (Except UploadError α × Disk PyStr))

theorem attempt_fails (h : s.fault = some 0) :
    s.attempt e effect = (.ok (.error e), { s with fault := none }) := by
  simp only [MapServer.attempt, h]

theorem attempt_goes (h : s.fault ≠ some 0) {r : Except UploadError α} {d : Disk PyStr}
    (heffect : effect s.disk = some (r, d)) :
    s.attempt e effect = (.ok r, { s with disk := d, fault := spend s.fault 1 }) := by
  unfold MapServer.attempt
  split
  · next hzero => exact absurd hzero h
  · rw [heffect]
    rfl

end Faults

/-! ## Streaming one file -/

/-- Nothing but the temporary file has been touched. -/
structure LeftAlone (tmpPath : PyStr) (s s' : MapServer) : Prop where
  sound : s'.disk.Sound
  dirs : s'.dirs = s.dirs
  content : ∀ path, path ≠ tmpPath → s'.disk.content path = s.disk.content path

/-- The stream has failed. -/
def StreamFails {α : Type} (tmpPath : PyStr) (s : MapServer)
    (r : Except UploadError α × MapServer) : Prop :=
  ∃ e s', r = (.error e, s') ∧ LeftAlone tmpPath s s'

/-- The file is at its destination, whole, after `n` operations. -/
structure StreamStores (destPath tmpPath : PyStr) (bytes : List UInt8) (n : ℕ) (s s' : MapServer) :
    Prop where
  sound : s'.disk.Sound
  dirs : s'.dirs = s.dirs
  stored : s'.disk.content destPath = some bytes
  content : ∀ path, path ≠ destPath → path ≠ tmpPath →
    s'.disk.content path = s.disk.content path
  fault : s'.fault = spend s.fault n

/-- Where `done` holds the stream has stored the bytes and returns their number; else it fails. -/
structure Streams (destPath tmpPath : PyStr) (bytes : List UInt8) (total n : ℕ) (done : Prop)
    (s : MapServer) (r : Except UploadError ℕ × MapServer) : Prop where
  stores : done → ∃ s', r = (.ok total, s') ∧ StreamStores destPath tmpPath bytes n s s'
  fails : ¬ done → StreamFails tmpPath s r

section Stream

variable {flushed : Disk PyStr → ℕ} {α : Type} {s s' : MapServer} {tmpPath destPath : PyStr}
  {handle : ℕ} {inode : Inode PyStr} {bytes : List UInt8}

theorem LeftAlone.trans {s'' : MapServer} (h : LeftAlone tmpPath s s')
    (h' : LeftAlone tmpPath s' s'') : LeftAlone tmpPath s s'' where
  sound := h'.sound
  dirs := h'.dirs.trans h.dirs
  content path hne := (h'.content path hne).trans (h.content path hne)

theorem StreamFails.of_leftAlone {r : Except UploadError α × MapServer}
    (h : LeftAlone tmpPath s s') (hr : StreamFails tmpPath s' r) : StreamFails tmpPath s r := by
  obtain ⟨e, s'', rfl, hrest⟩ := hr
  exact ⟨e, s'', rfl, h.trans hrest⟩

theorem StreamStores.of_leftAlone {n m k : ℕ} {s'' : MapServer} (h : LeftAlone tmpPath s s')
    (hfault : s'.fault = spend s.fault m) (hr : StreamStores destPath tmpPath bytes n s' s'')
    (hk : m + n = k) : StreamStores destPath tmpPath bytes k s s'' where
  sound := hr.sound
  dirs := hr.dirs.trans h.dirs
  stored := hr.stored
  content path hdest htmp := (hr.content path hdest htmp).trans (h.content path htmp)
  fault := by rw [hr.fault, hfault, spend_spend, hk]

theorem Streams.of_fails {total n : ℕ} {done : Prop} {r : Except UploadError ℕ × MapServer}
    (hdone : ¬ done) (hr : StreamFails tmpPath s r) :
    Streams destPath tmpPath bytes total n done s r := ⟨fun h => absurd h hdone, fun _ => hr⟩

theorem Streams.of_leftAlone {total n m k : ℕ} {done done' : Prop}
    {r : Except UploadError ℕ × MapServer} (h : LeftAlone tmpPath s s')
    (hfault : s'.fault = spend s.fault m) (hdone : done' ↔ done)
    (hr : Streams destPath tmpPath bytes total n done s' r) (hk : m + n = k) :
    Streams destPath tmpPath bytes total k done' s r where
  stores hd := by
    obtain ⟨s'', heval, hstores⟩ := hr.stores (hdone.mp hd)
    exact ⟨s'', heval, hstores.of_leftAlone h hfault hk⟩
  fails hd := .of_leftAlone h (hr.fails fun hd' => hd (hdone.mpr hd'))

/-- Bytes of the temporary file have been written, or none at all. -/
theorem leftAlone_of_writes (hs : s.disk.Sound) (htmp : s.disk.names tmpPath = some inode)
    {d : Disk PyStr} (hwrites : s.disk.Writes inode d) (fault : Option ℕ) :
    LeftAlone tmpPath s { s with disk := d, fault := fault } :=
  ⟨hwrites.sound hs, rfl, fun _ hne => hwrites.content hs htmp hne⟩

theorem leftAlone_fault (tmpPath : PyStr) (hs : s.disk.Sound) (fault : Option ℕ) :
    LeftAlone tmpPath s { s with fault := fault } := ⟨hs, rfl, fun _ _ => rfl⟩

theorem eval_leaveNothing (hs : s.disk.Sound) (e : UploadError) :
    StreamFails tmpPath s
      ((leaveNothing tmpPath e : Endpoint α).eval (MapServer.serve flushed) s) := by
  have hexists : (leaveNothing tmpPath e : Endpoint α).eval (MapServer.serve flushed) s =
      (if (s.disk.names tmpPath).isSome then (remove tmpPath).bind fun _ => .raise e
        else (.raise e : Endpoint α)).eval (MapServer.serve flushed) s := rfl
  rw [hexists]
  cases hname : s.disk.names tmpPath with
  | none => exact ⟨e, s, rfl, hs, rfl, fun _ _ => rfl⟩
  | some inode =>
      obtain ⟨d, hremove, hsound, hcontent⟩ := Disk.remove_spec hs hname
      have hserve : MapServer.serve flushed (.remove tmpPath) s =
          (.ok (.ok ()), { s with disk := d }) := by
        rw [MapServer.serve, hremove]
      refine ⟨e, { s with disk := d }, ?_, hsound, rfl, hcontent⟩
      exact Program.eval_call_ok hserve _

/-- The operation that fails takes the stream to its handler. -/
theorem StreamFails.of_fault (hs : s.disk.Sound) {e : UploadError}
    {r : Except UploadError α × MapServer}
    (hr : r = (leaveNothing tmpPath e).eval (MapServer.serve flushed) { s with fault := none }) :
    StreamFails tmpPath s r := by
  have hidle := leftAlone_fault tmpPath hs none
  rw [hr]
  exact .of_leftAlone hidle (eval_leaveNothing hidle.sound e)

theorem serve_close_fails (h : s.fault = some 0) : MapServer.serve flushed (.close handle) s =
    (.ok (.error .os), { s with fault := none }) :=
  attempt_fails .os (fun d => some (.ok (), d.close handle)) h

theorem serve_close_goes (h : s.fault ≠ some 0) : MapServer.serve flushed (.close handle) s =
    (.ok (.ok ()), { s with disk := s.disk.close handle, fault := spend s.fault 1 }) :=
  attempt_goes .os (fun d => some (.ok (), d.close handle)) h rfl

theorem eval_closeAndLeave (hs : s.disk.Sound) (htmp : s.disk.names tmpPath = some inode)
    (hgiven : s.disk.Given handle inode bytes) (e : UploadError) :
    StreamFails tmpPath s
      ((closeAndLeave handle tmpPath e : Endpoint α).eval (MapServer.serve flushed) s) := by
  by_cases hfault : s.fault = some 0
  · exact .of_fault hs (Program.eval_call_ok (serve_close_fails hfault) _)
  · have hgoes : (closeAndLeave handle tmpPath e : Endpoint α).eval (MapServer.serve flushed) s =
        (leaveNothing tmpPath e : Endpoint α).eval (MapServer.serve flushed)
          { s with disk := s.disk.close handle, fault := spend s.fault 1 } :=
      Program.eval_call_ok (serve_close_goes hfault) _
    have hclosed := leftAlone_of_writes hs htmp (Disk.data_close hgiven).2 (spend s.fault 1)
    rw [hgoes]
    exact .of_leftAlone hclosed (eval_leaveNothing hclosed.sound e)

def moveInPlace (tmpPath destPath : PyStr) (total : ℕ) : Endpoint ℕ :=
  .call (.replace tmpPath destPath) fun (replaced : Except UploadError Unit) =>
    match replaced with
    | .error e => leaveNothing tmpPath e
    | .ok () => .pure total

theorem eval_moveInPlace (flushed : Disk PyStr → ℕ) (destPath : PyStr) (hs : s.disk.Sound)
    (htmp : s.disk.names tmpPath = some inode) (total : ℕ) :
    Streams destPath tmpPath (s.disk.data inode) total 1 (survives s.fault 1 = true) s
      ((moveInPlace tmpPath destPath total).eval (MapServer.serve flushed) s) := by
  by_cases hfault : s.fault = some 0
  · have hserve : MapServer.serve flushed (.replace tmpPath destPath) s =
        (.ok (.error .os), { s with fault := none }) :=
      attempt_fails .os (fun d => UploadRace.answer (flushed d) (.replace tmpPath destPath) d)
        hfault
    refine .of_fails ?_ (.of_fault hs (Program.eval_call_ok hserve _))
    rw [not_survives hfault]
    exact Bool.false_ne_true
  · obtain ⟨d, hmoved, hsound, hdest, hcontent⟩ := Disk.replace_spec hs destPath htmp
    have hanswer : UploadRace.answer (flushed s.disk) (.replace tmpPath destPath) s.disk =
        some (.ok (), d) := by
      rw [UploadRace.answer, hmoved]
    have hserve : MapServer.serve flushed (.replace tmpPath destPath) s =
        (.ok (.ok ()), { s with disk := d, fault := spend s.fault 1 }) :=
      attempt_goes .os (fun d => UploadRace.answer (flushed d) (.replace tmpPath destPath) d) hfault
        hanswer
    refine ⟨fun _ => ⟨_, Program.eval_call_ok hserve _, hsound, rfl, hdest, hcontent, rfl⟩,
      fun hdone => absurd ?_ hdone⟩
    rw [survives_add hfault, survives_zero]

/-- The file is closed and then moved. -/
theorem eval_finish (flushed : Disk PyStr → ℕ) (destPath : PyStr) (hs : s.disk.Sound)
    (htmp : s.disk.names tmpPath = some inode) (hgiven : s.disk.Given handle inode bytes)
    (total : ℕ) :
    Streams destPath tmpPath bytes total 2 (survives s.fault 2 = true) s
      ((finish tmpPath destPath handle total).eval (MapServer.serve flushed) s) := by
  obtain ⟨hdata, hwrites⟩ := Disk.data_close hgiven
  by_cases hfault : s.fault = some 0
  · refine .of_fails ?_ (.of_fault hs (Program.eval_call_ok (serve_close_fails hfault) _))
    rw [not_survives hfault]
    exact Bool.false_ne_true
  · have hclosed := leftAlone_of_writes hs htmp hwrites (spend s.fault 1)
    have hname : (s.disk.close handle).names tmpPath = some inode := by rw [hwrites.names, htmp]
    have hgoes : (finish tmpPath destPath handle total).eval (MapServer.serve flushed) s =
        (moveInPlace tmpPath destPath total).eval (MapServer.serve flushed)
          { s with disk := s.disk.close handle, fault := spend s.fault 1 } :=
      Program.eval_call_ok (serve_close_goes hfault) _
    have hmove := eval_moveInPlace flushed destPath hclosed.sound hname total
    rw [hdata] at hmove
    rw [hgoes]
    exact hmove.of_leftAlone hclosed rfl (by rw [survives_add hfault]) rfl

/-- An exception that leaves the file to the handler, in a state the fault has been taken from. -/
theorem StreamFails.of_closeAndLeave (hs : s.disk.Sound)
    (htmp : s.disk.names tmpPath = some inode) (hgiven : s.disk.Given handle inode bytes)
    {fault : Option ℕ} {e : UploadError} {r : Except UploadError α × MapServer}
    (hr : r = (closeAndLeave handle tmpPath e).eval (MapServer.serve flushed)
      { s with fault := fault }) : StreamFails tmpPath s r := by
  have hidle := leftAlone_fault tmpPath hs fault
  rw [hr]
  exact .of_leftAlone hidle (eval_closeAndLeave hidle.sound htmp hgiven e)

/-- A chunk is written before the stream goes on. -/
def writeThen (tmpPath : PyStr) (handle : ℕ) (chunk : List UInt8) (next : Endpoint ℕ) :
    Endpoint ℕ :=
  .call (.write handle chunk) fun (written : Except UploadError Unit) =>
    match written with
    | .error e => closeAndLeave handle tmpPath e
    | .ok () => next

theorem eval_writeThen (flushed : Disk PyStr → ℕ) (hs : s.disk.Sound)
    (htmp : s.disk.names tmpPath = some inode) (hgiven : s.disk.Given handle inode bytes)
    (chunk : List UInt8) (next : Endpoint ℕ) :
    if s.fault = some 0 then
      StreamFails tmpPath s
        ((writeThen tmpPath handle chunk next).eval (MapServer.serve flushed) s)
    else ∃ s', (writeThen tmpPath handle chunk next).eval (MapServer.serve flushed) s =
        next.eval (MapServer.serve flushed) s' ∧ LeftAlone tmpPath s s' ∧
        s'.fault = spend s.fault 1 ∧ s'.disk.names tmpPath = some inode ∧
        s'.disk.Given handle inode (bytes ++ chunk) := by
  let effect (d : Disk PyStr) : Option (Except UploadError Unit × Disk PyStr) :=
    some (.ok (), d.write handle chunk (flushed d))
  split_ifs with hfault
  · have hserve : MapServer.serve flushed (.write handle chunk) s =
        (.ok (.error .os), { s with fault := none }) := attempt_fails .os effect hfault
    exact .of_closeAndLeave hs htmp hgiven (Program.eval_call_ok hserve _)
  · obtain ⟨hgiven', hwrites⟩ := Disk.given_write hgiven chunk (flushed s.disk)
    have hserve : MapServer.serve flushed (.write handle chunk) s =
        (.ok (.ok ()), { s with
          disk := s.disk.write handle chunk (flushed s.disk), fault := spend s.fault 1 }) :=
      attempt_goes .os effect hfault rfl
    exact ⟨_, Program.eval_call_ok hserve _, leftAlone_of_writes hs htmp hwrites _, rfl,
      (congrFun hwrites.names tmpPath).trans htmp, hgiven'⟩

theorem serve_read_fails (h : s.fault = some 0) : MapServer.serve flushed .read s =
    (.ok (.error .interrupted), { s with fault := none }) :=
  attempt_fails .interrupted (fun d => some (.ok (), d)) h

theorem serve_read_goes (h : s.fault ≠ some 0) : MapServer.serve flushed .read s =
    (.ok (.ok ()), { s with fault := spend s.fault 1 }) :=
  attempt_goes .interrupted (fun d => some (.ok (), d)) h rfl

/-- What is left of the upload is read and written, as long as it is not too large. -/
theorem eval_streamLoop (flushed : Disk PyStr → ℕ) (destPath : PyStr)
    (rest : List (List UInt8)) (hs : s.disk.Sound)
    (htmp : s.disk.names tmpPath = some inode) (hgiven : s.disk.Given handle inode bytes)
    (hbytes : bytes.length ≤ maxFileBytes) :
    Streams destPath tmpPath (bytes ++ rest.flatten) (bytes ++ rest.flatten).length
      (2 * rest.length + 3) ((bytes ++ rest.flatten).length ≤ maxFileBytes ∧
        survives s.fault (2 * rest.length + 3) = true) s
      ((streamLoop tmpPath destPath handle rest bytes.length).eval
        (MapServer.serve flushed) s) := by
  induction rest generalizing s bytes with
  | nil =>
      rw [List.flatten_nil, List.append_nil]
      by_cases hfault : s.fault = some 0
      · refine .of_fails (fun hdone => ?_)
          (.of_closeAndLeave hs htmp hgiven (Program.eval_call_ok (serve_read_fails hfault) _))
        rw [not_survives hfault] at hdone
        cases hdone.2
      · have hgoes : (streamLoop tmpPath destPath handle [] bytes.length).eval
            (MapServer.serve flushed) s = (finish tmpPath destPath handle bytes.length).eval
              (MapServer.serve flushed) { s with fault := spend s.fault 1 } :=
          Program.eval_call_ok (serve_read_goes hfault) _
        have hidle := leftAlone_fault tmpPath hs (spend s.fault 1)
        have hfinish := eval_finish flushed destPath hidle.sound htmp hgiven bytes.length
        rw [hgoes]
        refine hfinish.of_leftAlone hidle rfl ?_ rfl
        rw [List.length_nil, survives_add hfault]
        exact and_iff_right hbytes
  | cons chunk rest ih =>
      have hcount : 2 * (chunk :: rest).length + 3 = 2 * rest.length + 3 + 1 + 1 := by
        rw [List.length_cons]
        omega
      rw [hcount, List.flatten_cons, ← List.append_assoc]
      by_cases hread : s.fault = some 0
      · refine .of_fails (fun hdone => ?_)
          (.of_closeAndLeave hs htmp hgiven (Program.eval_call_ok (serve_read_fails hread) _))
        rw [not_survives hread] at hdone
        cases hdone.2
      · have hgoes : (streamLoop tmpPath destPath handle (chunk :: rest) bytes.length).eval
            (MapServer.serve flushed) s =
            (if maxFileBytes < bytes.length + chunk.length then
                closeAndLeave handle tmpPath fileTooLarge
              else writeThen tmpPath handle chunk
                (streamLoop tmpPath destPath handle rest (bytes.length + chunk.length))).eval
              (MapServer.serve flushed) { s with fault := spend s.fault 1 } :=
          Program.eval_call_ok (serve_read_goes hread) _
        have hidle := leftAlone_fault tmpPath hs (spend s.fault 1)
        rw [survives_add hread, hgoes, ← List.length_append]
        split_ifs with hlarge
        · refine .of_fails (fun hdone => ?_) (.of_leftAlone hidle
            (eval_closeAndLeave hidle.sound htmp hgiven fileTooLarge))
          have hlength := hdone.1
          rw [List.length_append] at hlength
          omega
        · have hwrite := eval_writeThen flushed hidle.sound htmp hgiven chunk
            (streamLoop tmpPath destPath handle rest (bytes ++ chunk).length)
          split_ifs at hwrite with hfault
          · refine .of_fails (fun hdone => ?_) (.of_leftAlone hidle hwrite)
            rw [not_survives hfault] at hdone
            cases hdone.2
          · obtain ⟨s', heval, hwritten, hspent, hname, hgiven'⟩ := hwrite
            have hrest := ih hwritten.sound hname hgiven' (Nat.le_of_not_lt hlarge)
            have hspent' : s'.fault = spend s.fault 2 := by rw [hspent, spend_spend]
            rw [heval]
            refine hrest.of_leftAlone (hidle.trans hwritten) hspent' ?_ (by omega)
            rw [hspent, ← survives_add hfault]

/-- Opening, a read before each chunk and one at the end, the writes, closing and moving. -/
def operations (upload : Upload) : ℕ := 2 * upload.reads.length + 4

/-- The file is not too large, and the fault comes after it. -/
def completes (fault : Option ℕ) (upload : Upload) : Bool :=
  upload.content.length ≤ maxFileBytes && survives fault (operations upload)

/-- A file is stored whole or not at all. -/
theorem eval_streamToDisk (flushed : Disk PyStr → ℕ) (hs : s.disk.Sound) (upload : Upload)
    (destPath : PyStr) :
    if completes s.fault upload then
      ∃ s', (streamToDisk upload destPath).eval (MapServer.serve flushed) s =
        (.ok upload.content.length, s') ∧
        StreamStores destPath (destPath ++ tmpSuffix) upload.content (operations upload) s s'
    else StreamFails (destPath ++ tmpSuffix) s
      ((streamToDisk upload destPath).eval (MapServer.serve flushed) s) := by
  let effect (d : Disk PyStr) : Option (Except UploadError ℕ × Disk PyStr) :=
    some (.ok (d.openWrite (destPath ++ tmpSuffix)).1, (d.openWrite (destPath ++ tmpSuffix)).2)
  unfold completes operations
  by_cases hfault : s.fault = some 0
  · have hserve : MapServer.serve flushed (.openWrite (destPath ++ tmpSuffix)) s =
        (.ok (.error .os), { s with fault := none }) := attempt_fails .os effect hfault
    rw [not_survives hfault, Bool.and_false, if_neg Bool.false_ne_true]
    exact .of_fault hs (Program.eval_call_ok hserve _)
  · obtain ⟨inode, htmp, hgiven, hsound, hcontent⟩ :=
      Disk.openWrite_spec hs (destPath ++ tmpSuffix)
    let opened : MapServer :=
      { s with disk := (s.disk.openWrite (destPath ++ tmpSuffix)).2, fault := spend s.fault 1 }
    have hopened : LeftAlone (destPath ++ tmpSuffix) s opened := ⟨hsound, rfl, hcontent⟩
    have hserve : MapServer.serve flushed (.openWrite (destPath ++ tmpSuffix)) s =
        (.ok (.ok (s.disk.openWrite (destPath ++ tmpSuffix)).1), opened) :=
      attempt_goes .os effect hfault rfl
    have hgoes : (streamToDisk upload destPath).eval (MapServer.serve flushed) s =
        (streamLoop (destPath ++ tmpSuffix) destPath (s.disk.openWrite (destPath ++ tmpSuffix)).1
          upload.reads 0).eval (MapServer.serve flushed) opened := Program.eval_call_ok hserve _
    have hloop := eval_streamLoop flushed destPath upload.reads hopened.sound htmp hgiven
      (Nat.zero_le _)
    rw [List.nil_append, List.length_nil] at hloop
    have hstream : Streams destPath (destPath ++ tmpSuffix) upload.content upload.content.length
        (2 * upload.reads.length + 4) ((upload.content.length ≤ maxFileBytes &&
          survives s.fault (2 * upload.reads.length + 4)) = true) s
        ((streamToDisk upload destPath).eval (MapServer.serve flushed) s) := by
      rw [hgoes]
      refine hloop.of_leftAlone hopened rfl ?_ (by omega)
      rw [survives_add hfault, Bool.and_eq_true, decide_eq_true_eq]
      rfl
    split_ifs with hdone
    · exact hstream.stores hdone
    · exact hstream.fails hdone

end Stream

end Crashlens
