import Crashlens.MapServer
import Crashlens.PathConfinement

/-!
# A batch of maps that fails

The names of a batch are checked before anything is written, but the files are stored one after the
other. So when one of them fails those before it are there already, in place of what was stored
under their names, and the batch leaves no trace exactly when that was the same.
-/

namespace Crashlens

open Transactional OpenFiles

/-- The name of a stored map. -/
structure MapName (name : PyStr) : Prop where
  noSlash : slash ∉ name
  suffix : mapSuffix.isSuffixOf name = true

/-- The files of a batch that are stored before one fails. -/
def completed : Option ℕ → List (Upload × PyStr) → List (Upload × PyStr)
  | _, [] => []
  | fault, x :: rest =>
    if completes fault x.1 then x :: completed (spend fault (operations x.1)) rest else []

/-- The content of the last file of that name. -/
def lastUnder (name : PyStr) : List (Upload × PyStr) → Option (List UInt8)
  | [] => none
  | x :: rest => (lastUnder name rest).or (if x.2 = name then some x.1.content else none)

/-! ## Names in a directory -/

section Names

variable {name base : PyStr}

theorem MapName.component (h : MapName name) : Component name := by
  refine ⟨?_, h.noSlash⟩
  rintro rfl
  have hsuffix := h.suffix
  revert hsuffix
  decide

theorem FileName.component_self (h : FileName base) : Component base := ⟨h.nonempty, h.noSlash⟩

theorem osPathJoin_inj (dir : PyStr) (hname : Component name) (hbase : Component base)
    (h : osPathJoin dir name = osPathJoin dir base) : name = base := by
  rw [osPathJoin_component hname, osPathJoin_component hbase] at h
  exact List.append_cancel_left h

/-- No map is streamed to where another one is stored. -/
theorem osPathJoin_ne_tmp (dir : PyStr) (hname : MapName name) (hbase : Component base) :
    osPathJoin dir name ≠ osPathJoin dir base ++ tmpSuffix := by
  intro h
  rw [osPathJoin_component hname.component, osPathJoin_component hbase, List.append_assoc] at h
  have htmp : tmpSuffix <:+ name := ⟨base, (List.append_cancel_left h).symm⟩
  have hmap : mapSuffix <:+ name := List.isSuffixOf_iff_suffix.mp hname.suffix
  have hsub : mapSuffix <:+ tmpSuffix := List.suffix_of_suffix_length_le hmap htmp (by decide)
  have hne : mapSuffix ≠ tmpSuffix := by decide
  exact hne (hsub.eq_of_length (by decide))

end Names

/-! ## Storing what is planned -/

section Stored

variable (flushed : Disk PyStr → ℕ) {s s' : MapServer} {dir : PyStr}

/-- The maps of a directory after some files have been stored over them. -/
structure StoredOver (dir : PyStr) (stored : List (Upload × PyStr)) (s s' : MapServer) : Prop where
  sound : s'.disk.Sound
  dirs : s'.dirs = s.dirs
  content : ∀ name, MapName name → s'.disk.content (osPathJoin dir name) =
    (lastUnder name stored).or (s.disk.content (osPathJoin dir name))

theorem storedOver_of_leftAlone {base : PyStr} (hbase : Component base)
    (h : LeftAlone (osPathJoin dir base ++ tmpSuffix) s s') : StoredOver dir [] s s' where
  sound := h.sound
  dirs := h.dirs
  content _ hname := h.content _ (osPathJoin_ne_tmp dir hname hbase)

/-- One file is stored, and then the others. -/
theorem StreamStores.cons {x : Upload × PyStr} {n : ℕ} (hbase : Component x.2)
    (h : StreamStores (osPathJoin dir x.2) (osPathJoin dir x.2 ++ tmpSuffix) x.1.content n s s')
    {rest : List (Upload × PyStr)} {s'' : MapServer} (hrest : StoredOver dir rest s' s'') :
    StoredOver dir (x :: rest) s s'' where
  sound := hrest.sound
  dirs := hrest.dirs.trans h.dirs
  content name hname := by
    rw [hrest.content name hname, lastUnder, Option.or_assoc]
    congr 1
    split_ifs with heq
    · rw [← heq, h.stored]
      rfl
    · have hdest : osPathJoin dir name ≠ osPathJoin dir x.2 :=
        fun hpath => heq (osPathJoin_inj dir hname.component hbase hpath).symm
      exact h.content _ hdest (osPathJoin_ne_tmp dir hname hbase)

/-- The files are stored in their order up to the one that fails. -/
theorem eval_storePlanned {planned : List (Upload × PyStr)} (hs : s.disk.Sound)
    (hplanned : ∀ x ∈ planned, FileName x.2) :
    ∃ r s', (storePlanned dir planned).eval (MapServer.serve flushed) s = (r, s') ∧
      StoredOver dir (completed s.fault planned) s s' := by
  induction planned generalizing s with
  | nil => exact ⟨.ok [], s, rfl, hs, rfl, fun _ _ => rfl⟩
  | cons x rest ih =>
      rw [List.forall_mem_cons] at hplanned
      have hbase := hplanned.1.component_self
      have hstream := eval_streamToDisk flushed hs x.1 (osPathJoin dir x.2)
      rw [storePlanned, Program.eval_bind, completed]
      split_ifs at hstream ⊢
      · obtain ⟨s₁, heval, hstores⟩ := hstream
        obtain ⟨r, s', hrest, hover⟩ := ih hstores.sound hplanned.2
        rw [hstores.fault] at hover
        rw [heval]
        dsimp only
        rw [Program.eval_bind, hrest]
        cases r with
        | ok sizes => exact ⟨_, s', rfl, hstores.cons hbase hover⟩
        | error e => exact ⟨_, s', rfl, hstores.cons hbase hover⟩
      · obtain ⟨e, s', heval, hleft⟩ := hstream
        rw [heval]
        exact ⟨_, s', rfl, storedOver_of_leftAlone hbase hleft⟩

end Stored

/-! ## The endpoint -/

section Endpoint

/-- The files of an upload that are stored: none where a check before that fails. -/
def filesStored (rt : Runtime) (inOrg : Bool) (fault : Option ℕ) (release : PyStr)
    (files : List Upload) : List (Upload × PyStr) :=
  if strip rt.isSpace release = [] ∨ maxFiles < files.length ∨ inOrg = false then []
  else
    match files.mapM planUpload with
    | .ok planned => completed fault planned
    | .error _ => []

variable {rt : Runtime} {root release dir : PyStr} {orgId projectId : ℕ} {s : MapServer}

/-- The files are stored over what is in the directory, if no check before that fails. -/
theorem eval_uploadSourcemaps (flushed : Disk PyStr → ℕ) (files : List Upload)
    (hs : s.disk.Sound)
    (hdir : releaseMapsPath root orgId projectId (strip rt.isSpace release) = .ok dir) :
    ∃ r s', (uploadSourcemaps rt root orgId projectId release files).eval
        (MapServer.serve flushed) s = (r, s') ∧
      ((∃ e, r = .error e) ∧ s' = s ∧ filesStored rt s.inOrg s.fault release files = [] ∨
        StoredOver dir (filesStored rt s.inOrg s.fault release files) (s.makedirs dir) s') := by
  have hrelease : releaseDirectory root orgId projectId (strip rt.isSpace release) = .pure dir := by
    rw [releaseDirectory, hdir]
    rfl
  unfold uploadSourcemaps filesStored
  dsimp only
  rw [hrelease]
  by_cases hempty : strip rt.isSpace release = []
  · rw [if_pos hempty, if_pos (.inl hempty)]
    exact ⟨_, s, rfl, .inl ⟨⟨_, rfl⟩, rfl, rfl⟩⟩
  rw [if_neg hempty]
  by_cases hnone : files = []
  · have hplan : ([] : List Upload).mapM planUpload = .ok [] := rfl
    subst hnone
    rw [if_pos rfl, hplan]
    refine ⟨_, s, rfl, .inl ⟨⟨_, rfl⟩, rfl, ?_⟩⟩
    split_ifs
    · rfl
    · exact completed.eq_1 _
  rw [if_neg hnone]
  by_cases hmany : maxFiles < files.length
  · rw [if_pos hmany, if_pos (.inr (.inl hmany))]
    exact ⟨_, s, rfl, .inl ⟨⟨_, rfl⟩, rfl, rfl⟩⟩
  rw [if_neg hmany]
  rw [Program.bind_eq, MapServer.eval_verifyProject]
  cases horg : s.inOrg with
  | false => exact ⟨_, s, rfl, .inl ⟨⟨_, rfl⟩, rfl, if_pos (.inr (.inr rfl))⟩⟩
  | true =>
      have hchecked : ¬ (strip rt.isSpace release = [] ∨ maxFiles < files.length ∨
          true = false) := by simp [hempty, hmany]
      rw [if_neg hchecked]
      cases hplan : files.mapM planUpload with
      | error e => exact ⟨.error e, s, rfl, .inl ⟨⟨_, rfl⟩, rfl, rfl⟩⟩
      | ok planned =>
          obtain ⟨r, s', heval, hover⟩ :=
            eval_storePlanned flushed (s := s.makedirs dir) hs (planned_fileName hplan)
          exact ⟨r, s', heval, .inr hover⟩

theorem mem_of_lastUnder {name : PyStr} {bytes : List UInt8} {stored : List (Upload × PyStr)}
    (h : lastUnder name stored = some bytes) : ∃ x ∈ stored, x.2 = name := by
  induction stored with
  | nil => cases h
  | cons x rest ih =>
      rw [lastUnder, Option.or_eq_some_iff] at h
      obtain h | ⟨-, h⟩ := h
      · obtain ⟨y, hy, hname⟩ := ih h
        exact ⟨y, List.mem_cons_of_mem x hy, hname⟩
      · split_ifs at h with heq
        exact ⟨x, List.mem_cons_self, heq⟩

theorem completed_subset (fault : Option ℕ) (planned : List (Upload × PyStr)) :
    ∀ x ∈ completed fault planned, x ∈ planned := by
  induction planned generalizing fault with
  | nil => exact fun x hx => by cases hx
  | cons y rest ih =>
      intro x hx
      rw [completed] at hx
      split_ifs at hx
      · obtain rfl | hx := List.mem_cons.mp hx
        · exact List.mem_cons_self
        · exact List.mem_cons_of_mem y (ih _ x hx)
      · cases hx

theorem planned_mapName {files : List Upload} {planned : List (Upload × PyStr)}
    (h : files.mapM planUpload = .ok planned) : ∀ x ∈ planned, MapName x.2 := by
  have hone {upload : Upload} {x : Upload × PyStr} (hx : planUpload upload = .ok x) :
      MapName x.2 := by
    refine ⟨(planUpload_fileName hx).noSlash, ?_⟩
    unfold planUpload at hx
    split at hx
    · cases hx
    · split_ifs at hx with hsuffix
      cases hx
      exact hsuffix
  rw [mapM_eq_ok] at h
  induction h with
  | nil => exact fun x hx => by cases hx
  | cons hupload _ ih => exact List.forall_mem_cons.mpr ⟨hone hupload, ih⟩

theorem filesStored_mapName (rt : Runtime) (inOrg : Bool) (fault : Option ℕ) (release : PyStr)
    (files : List Upload) : ∀ x ∈ filesStored rt inOrg fault release files, MapName x.2 := by
  intro x hx
  unfold filesStored at hx
  split_ifs at hx
  · cases hx
  · split at hx
    · next planned hplan => exact planned_mapName hplan x (completed_subset fault planned x hx)
    · cases hx

/-- The maps of the directory are those that were stored before, with the same content. -/
def MapsKept (dir : PyStr) (s s' : MapServer) : Prop :=
  ∀ name, MapName name → s'.disk.content (osPathJoin dir name) =
    s.disk.content (osPathJoin dir name)

/-- A batch that fails leaves the maps of the release as they were exactly when every file that was
stored before the failure has the content that was there under its name. -/
theorem failed_upload_keeps_iff (rt : Runtime) (flushed : Disk PyStr → ℕ) (files : List Upload)
    (store : PyStr → Option (List UInt8)) (dirs : PyStr → Bool) (inOrg : Bool)
    (fault : Option ℕ) {e : UploadError} {s' : MapServer}
    (hdir : releaseMapsPath root orgId projectId (strip rt.isSpace release) = .ok dir)
    (hfails : (uploadSourcemaps rt root orgId projectId release files).eval
      (MapServer.serve flushed) (.start store dirs inOrg fault) = (.error e, s')) :
    MapsKept dir (.start store dirs inOrg fault) s' ↔
      ∀ name bytes, lastUnder name (filesStored rt inOrg fault release files) = some bytes →
        store (osPathJoin dir name) = some bytes := by
  have hbefore (path : PyStr) :
      (MapServer.start store dirs inOrg fault).disk.content path = store path :=
    Disk.content_ofFiles store path
  obtain ⟨r, s'', heval, hcases⟩ :=
    eval_uploadSourcemaps (s := .start store dirs inOrg fault) flushed files
      (Disk.sound_ofFiles store) hdir
  obtain ⟨-, rfl⟩ := Prod.mk.inj (heval.symm.trans hfails)
  obtain ⟨-, rfl, hnone⟩ | hover := hcases
  · refine iff_of_true (fun _ _ => rfl) fun name bytes hlast => ?_
    rw [show filesStored rt inOrg fault release files = [] from hnone] at hlast
    cases hlast
  · have hafter (name : PyStr) (hname : MapName name) : s''.disk.content (osPathJoin dir name) =
        (lastUnder name (filesStored rt inOrg fault release files)).or
          (store (osPathJoin dir name)) := by
      rw [← hbefore]
      exact hover.content name hname
    unfold MapsKept
    constructor
    · intro hkept name bytes hlast
      obtain ⟨x, hx, rfl⟩ := mem_of_lastUnder hlast
      have hname := filesStored_mapName rt inOrg fault release files x hx
      have hsame := hkept x.2 hname
      rw [hafter _ hname, hlast, hbefore] at hsame
      exact hsame.symm
    · intro hstored name hname
      rw [hafter name hname, hbefore]
      cases hlast : lastUnder name (filesStored rt inOrg fault release files) with
      | none => rfl
      | some bytes => exact (hstored name bytes hlast).symm

/-! ## Two maps, of which the second is interrupted -/

def mapUpload (name : PyStr) (byte : UInt8) : Upload :=
  ⟨some name, [[byte]], by simp, by simp [chunkBytes]⟩

def twoMaps : List Upload := [mapUpload (py "app.js.map") 1, mapUpload (py "vendor.js.map") 2]

/-- The release `1.0` has one map already. -/
def oldStore (path : PyStr) : Option (List UInt8) :=
  if path = joinAll (py "/data") [uuidStr 1, uuidStr 2, py "MS4w", py "app.js.map"] then some [9]
  else none

def oldDirectory : PyStr := joinAll (py "/data") [uuidStr 1, uuidStr 2, py "MS4w"]

/-- The client goes away at the first read of the second map. -/
def interruptedBatch : Except UploadError (List ℕ) × MapServer :=
  (uploadSourcemaps sampleRuntime (py "/data") 1 2 (py "1.0") twoMaps).eval
    (MapServer.serve fun _ => 0) (.start oldStore (fun _ => false) true (some 7))

theorem interruptedBatch_keeps_iff : interruptedBatch.1 = .error .interrupted ∧
    (MapsKept oldDirectory (.start oldStore (fun _ => false) true (some 7)) interruptedBatch.2 ↔
      ∀ name bytes, lastUnder name
          (filesStored sampleRuntime true (some 7) (py "1.0") twoMaps) = some bytes →
        oldStore (osPathJoin oldDirectory name) = some bytes) := by
  have hdir : releaseMapsPath (py "/data") 1 2 (strip sampleRuntime.isSpace (py "1.0")) =
      .ok oldDirectory := by decide +kernel
  have hfails : interruptedBatch.1 = .error .interrupted := by decide +kernel
  exact ⟨hfails, failed_upload_keeps_iff sampleRuntime (fun _ => 0) twoMaps oldStore
    (fun _ => false) true (some 7) hdir (Prod.ext hfails rfl)⟩

/-- The first map is another one than before. -/
theorem interruptedBatch_leaves_trace : interruptedBatch.1 = .error .interrupted ∧
    oldStore (osPathJoin oldDirectory (py "app.js.map")) = some [9] ∧
    interruptedBatch.2.disk.content (osPathJoin oldDirectory (py "app.js.map")) = some [1] := by
  decide +kernel

end Endpoint

end Crashlens
