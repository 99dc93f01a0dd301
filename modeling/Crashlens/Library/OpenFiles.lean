import Mathlib.Logic.Function.Basic
import Mathlib.Data.List.Basic

/-!
# Files, their names and the handles that write to them

A path names a file, and an open handle keeps its file when the name goes to another one or away.
Opening for writing empties the file a path names; each handle writes at an offset of its own, and
what it is given stays in its buffer until some of it is flushed. A rename moves a name at once.

`Disk.Given h inode bytes` says that the handle stands at the end of the file and that the file
with the buffer is what has been given to the handle: as long as nobody else opens the file, that is
so from the opening to the closing.
-/

set_option linter.unusedSectionVars false

namespace OpenFiles

inductive Inode (π : Type) where
  | initial (path : π)
  | created (n : ℕ)
deriving DecidableEq

structure Handle (π : Type) where
  inode : Inode π
  offset : ℕ
  pending : List UInt8

structure Disk (π : Type) where
  names : π → Option (Inode π)
  data : Inode π → List UInt8
  handles : ℕ → Option (Handle π)
  created : ℕ
  opened : ℕ

/-- Writing past the end fills the gap with zeros; writing nothing changes nothing. -/
def writeAt (offset : ℕ) (bytes file : List UInt8) : List UInt8 :=
  if bytes = [] then file
  else (file ++ List.replicate (offset - file.length) 0).take offset ++ bytes ++
    file.drop (offset + bytes.length)

theorem writeAt_end (bytes file : List UInt8) : writeAt file.length bytes file = file ++ bytes := by
  unfold writeAt
  split_ifs with h
  · rw [h, List.append_nil]
  · rw [Nat.sub_self, List.replicate_zero, List.append_nil, List.take_length,
      List.drop_of_length_le (Nat.le_add_right ..), List.append_nil]

namespace Disk

variable {π : Type}

/-- A directory with these files, nothing of it open. -/
def ofFiles (files : π → Option (List UInt8)) : Disk π where
  names path := (files path).map fun _ => .initial path
  data
    | .initial path => (files path).getD []
    | .created _ => []
  handles _ := none
  created := 0
  opened := 0

def content (d : Disk π) (path : π) : Option (List UInt8) := (d.names path).map d.data

/-! ## Names -/

/-- No file has two names, and a file yet to be created has none. -/
structure Sound (d : Disk π) : Prop where
  once : ∀ path path' inode, d.names path = some inode → d.names path' = some inode → path = path'
  below : ∀ path n, d.names path = some (.created n) → n < d.created

/-- The disk after some bytes of one file have been written. -/
structure Writes (d : Disk π) (inode : Inode π) (d' : Disk π) : Prop where
  names : d'.names = d.names
  created : d'.created = d.created
  data : ∀ inode', inode' ≠ inode → d'.data inode' = d.data inode'

/-- The handle stands at the end of the file, and the file and the buffer are the bytes. -/
def Given (d : Disk π) (h : ℕ) (inode : Inode π) (bytes : List UInt8) : Prop :=
  ∃ f, d.handles h = some f ∧ f.inode = inode ∧ f.offset = (d.data inode).length ∧
    d.data inode ++ f.pending = bytes

variable {d d' d'' : Disk π} {path path' : π} {inode : Inode π} {h : ℕ} {bytes : List UInt8}

theorem sound_ofFiles (files : π → Option (List UInt8)) : (ofFiles files).Sound := by
  have hnames {path : π} {inode : Inode π} (h : (ofFiles files).names path = some inode) :
      inode = .initial path := by
    obtain ⟨_, -, rfl⟩ := Option.map_eq_some_iff.mp h
    rfl
  constructor
  · intro path path' inode h h'
    cases (hnames h).symm.trans (hnames h')
    rfl
  · intro path n h
    cases hnames h

theorem content_ofFiles (files : π → Option (List UInt8)) (path : π) :
    (ofFiles files).content path = files path := by
  unfold content ofFiles
  cases hfile : files path with
  | none => simp [hfile]
  | some bytes => simp [hfile]

theorem Writes.trans (h : d.Writes inode d') (h' : d'.Writes inode d'') : d.Writes inode d'' where
  names := h'.names.trans h.names
  created := h'.created.trans h.created
  data inode' hne := (h'.data inode' hne).trans (h.data inode' hne)

theorem Writes.sound (hw : d.Writes inode d') (hs : d.Sound) : d'.Sound := by
  constructor
  · rw [hw.names]
    exact hs.once
  · rw [hw.names, hw.created]
    exact hs.below

/-- A file of another name is as it was. -/
theorem Writes.content (hw : d.Writes inode d') (hs : d.Sound) (hname : d.names path = some inode)
    (hne : path' ≠ path) : d'.content path' = d.content path' := by
  unfold Disk.content
  rw [hw.names]
  cases hother : d.names path' with
  | none => rfl
  | some inode' =>
      have hdiffer : inode' ≠ inode := by
        rintro rfl
        exact hne (hs.once path' path _ hother hname)
      exact congrArg some (hw.data inode' hdiffer)

/-! ## What the operating system does -/

variable [DecidableEq π]

section Operations

variable (d : Disk π)

/-- The file that opening the path for writing gives, emptied. -/
def truncate (path : π) : Inode π × Disk π :=
  match d.names path with
  | some inode => (inode, { d with data := Function.update d.data inode [] })
  | none =>
    (.created d.created,
      { d with
        names := Function.update d.names path (some (.created d.created))
        data := Function.update d.data (.created d.created) []
        created := d.created + 1 })

def openWrite (path : π) : ℕ × Disk π :=
  let (inode, d') := d.truncate path
  (d.opened,
    { d' with
      handles := Function.update d'.handles d.opened (some ⟨inode, 0, []⟩)
      opened := d.opened + 1 })

/-- The first `k` bytes of the buffer go to the file. -/
def flush (h k : ℕ) : Disk π :=
  match d.handles h with
  | none => d
  | some f =>
    { d with
      data := Function.update d.data f.inode
        (writeAt f.offset (f.pending.take k) (d.data f.inode))
      handles := Function.update d.handles h
        (some ⟨f.inode, f.offset + (f.pending.take k).length, f.pending.drop k⟩) }

def buffer (h : ℕ) (bytes : List UInt8) : Disk π :=
  match d.handles h with
  | none => d
  | some f =>
    { d with
      handles := Function.update d.handles h (some ⟨f.inode, f.offset, f.pending ++ bytes⟩) }

def write (h : ℕ) (bytes : List UInt8) (k : ℕ) : Disk π := (d.buffer h bytes).flush h k

def close (h : ℕ) : Disk π :=
  match d.handles h with
  | none => d
  | some f =>
    let d' := d.flush h f.pending.length
    { d' with handles := Function.update d'.handles h none }

/-- `none` when there is no such file, as of `remove`. -/
def replace (source dest : π) : Option (Disk π) :=
  (d.names source).map fun inode =>
    { d with
      names := Function.update (Function.update d.names source none) dest (some inode) }

def remove (path : π) : Option (Disk π) :=
  (d.names path).map fun _ => { d with names := Function.update d.names path none }

end Operations

/-! ## A handle that has its file to itself -/

theorem given_flush (hg : d.Given h inode bytes) (k : ℕ) :
    (d.flush h k).Given h inode bytes ∧ d.Writes inode (d.flush h k) := by
  obtain ⟨f, hf, rfl, hoffset, hbytes⟩ := hg
  have hflush : d.flush h k =
      { d with
        data := Function.update d.data f.inode (d.data f.inode ++ f.pending.take k)
        handles := Function.update d.handles h
          (some ⟨f.inode, f.offset + (f.pending.take k).length, f.pending.drop k⟩) } := by
    unfold flush
    rw [hf]
    dsimp only
    rw [hoffset, writeAt_end]
  rw [hflush]
  refine ⟨⟨_, Function.update_self .., rfl, ?_, ?_⟩, ⟨rfl, rfl, ?_⟩⟩
  · dsimp only
    rw [Function.update_self, List.length_append, hoffset]
  · dsimp only
    rw [Function.update_self, List.append_assoc, List.take_append_drop, hbytes]
  · exact fun inode' hne => Function.update_of_ne hne ..

theorem given_buffer (hg : d.Given h inode bytes) (chunk : List UInt8) :
    (d.buffer h chunk).Given h inode (bytes ++ chunk) ∧ d.Writes inode (d.buffer h chunk) := by
  obtain ⟨f, hf, rfl, hoffset, hbytes⟩ := hg
  have hbuffer : d.buffer h chunk =
      { d with
        handles := Function.update d.handles h
          (some ⟨f.inode, f.offset, f.pending ++ chunk⟩) } := by
    unfold buffer
    rw [hf]
  rw [hbuffer]
  refine ⟨⟨_, Function.update_self .., rfl, hoffset, ?_⟩, ⟨rfl, rfl, fun _ _ => rfl⟩⟩
  dsimp only
  rw [← List.append_assoc, hbytes]

theorem given_write (hg : d.Given h inode bytes) (chunk : List UInt8) (k : ℕ) :
    (d.write h chunk k).Given h inode (bytes ++ chunk) ∧ d.Writes inode (d.write h chunk k) := by
  obtain ⟨hbuffered, hwrites⟩ := given_buffer hg chunk
  obtain ⟨hflushed, hwrites'⟩ := given_flush hbuffered k
  exact ⟨hflushed, hwrites.trans hwrites'⟩

theorem data_close (hg : d.Given h inode bytes) :
    (d.close h).data inode = bytes ∧ d.Writes inode (d.close h) := by
  obtain ⟨f, hf, rfl, hoffset, hbytes⟩ := hg
  have hclose : d.close h =
      { d.flush h f.pending.length with
        handles := Function.update (d.flush h f.pending.length).handles h none } := by
    unfold close
    rw [hf]
  have hwrites := (given_flush ⟨f, hf, rfl, hoffset, hbytes⟩ f.pending.length).2
  rw [hclose]
  refine ⟨?_, ⟨hwrites.names, hwrites.created, hwrites.data⟩⟩
  dsimp only [flush]
  rw [hf]
  dsimp only
  rw [Function.update_self, List.take_length, hoffset, writeAt_end, hbytes]

theorem truncate_spec (hs : d.Sound) (path : π) :
    (d.truncate path).2.names path = some (d.truncate path).1 ∧
      (d.truncate path).2.data (d.truncate path).1 = [] ∧ (d.truncate path).2.Sound ∧
      ∀ path', path' ≠ path → (d.truncate path).2.content path' = d.content path' := by
  unfold truncate
  cases hname : d.names path with
  | some inode =>
      have hwrites : d.Writes inode { d with data := Function.update d.data inode [] } :=
        ⟨rfl, rfl, fun inode' hne => Function.update_of_ne hne ..⟩
      exact ⟨hname, Function.update_self .., hwrites.sound hs,
        fun path' hne => hwrites.content hs hname hne⟩
  | none =>
      have hfresh {path' : π} : d.names path' ≠ some (.created d.created) := fun h =>
        Nat.lt_irrefl _ (hs.below path' _ h)
      refine ⟨Function.update_self .., Function.update_self .., ⟨?_, ?_⟩, fun path' hne => ?_⟩
      · intro p p' inode hp hp'
        dsimp only at hp hp'
        rw [Function.update_apply] at hp hp'
        split_ifs at hp hp' with heq heq'
        · rw [heq, heq']
        · exact absurd (hp'.trans hp.symm) hfresh
        · exact absurd (hp.trans hp'.symm) hfresh
        · exact hs.once p p' inode hp hp'
      · intro p n hp
        dsimp only at hp ⊢
        rw [Function.update_apply] at hp
        split_ifs at hp with heq
        · cases hp
          exact Nat.lt_succ_self _
        · exact Nat.lt_succ_of_lt (hs.below p n hp)
      · unfold content
        dsimp only
        rw [Function.update_of_ne hne]
        cases hother : d.names path' with
        | none => rfl
        | some inode' =>
            have hdiffer : inode' ≠ .created d.created := fun h => hfresh (h ▸ hother)
            exact congrArg some (Function.update_of_ne hdiffer ..)

/-- Opening a path gives a handle at the start of an empty file, and no other path notices. -/
theorem openWrite_spec (hs : d.Sound) (path : π) :
    ∃ inode, (d.openWrite path).2.names path = some inode ∧
      (d.openWrite path).2.Given (d.openWrite path).1 inode [] ∧ (d.openWrite path).2.Sound ∧
      ∀ path', path' ≠ path → (d.openWrite path).2.content path' = d.content path' := by
  obtain ⟨hname, hdata, hsound, hcontent⟩ := truncate_spec hs path
  refine ⟨(d.truncate path).1, hname, ⟨_, Function.update_self .., rfl, ?_, ?_⟩,
    ⟨hsound.once, hsound.below⟩, hcontent⟩
  · exact (congrArg List.length hdata).symm
  · exact (List.append_nil _).trans hdata

theorem replace_spec (hs : d.Sound) {source : π} (dest : π)
    (hname : d.names source = some inode) :
    ∃ d', d.replace source dest = some d' ∧ d'.Sound ∧
      d'.content dest = some (d.data inode) ∧
      ∀ path', path' ≠ dest → path' ≠ source → d'.content path' = d.content path' := by
  have hmoved {p : π} {inode' : Inode π}
      (hp : Function.update (Function.update d.names source none) dest (some inode) p =
        some inode') :
      p = dest ∧ inode' = inode ∨ p ≠ source ∧ d.names p = some inode' := by
    rw [Function.update_apply, Function.update_apply] at hp
    split_ifs at hp with hdest hsource
    · exact .inl ⟨hdest, (Option.some.inj hp).symm⟩
    · exact .inr ⟨hsource, hp⟩
  refine ⟨_, by rw [replace, hname]; rfl, ⟨?_, ?_⟩, ?_, fun path' hdest hsource => ?_⟩
  · intro p p' inode' hp hp'
    obtain ⟨rfl, rfl⟩ | ⟨hpne, hold⟩ := hmoved hp
    · obtain ⟨rfl, -⟩ | ⟨hpne', hold'⟩ := hmoved hp'
      · rfl
      · exact absurd (hs.once p' source _ hold' hname) hpne'
    · obtain ⟨rfl, rfl⟩ | ⟨-, hold'⟩ := hmoved hp'
      · exact absurd (hs.once p source _ hold hname) hpne
      · exact hs.once p p' inode' hold hold'
  · intro p n hp
    obtain ⟨rfl, rfl⟩ | ⟨-, hp⟩ := hmoved hp
    · exact hs.below source n hname
    · exact hs.below p n hp
  · unfold content
    dsimp only
    rw [Function.update_self, Option.map_some]
  · unfold content
    dsimp only
    rw [Function.update_of_ne hdest, Function.update_of_ne hsource]

theorem remove_spec (hs : d.Sound) (hname : d.names path = some inode) :
    ∃ d', d.remove path = some d' ∧ d'.Sound ∧
      ∀ path', path' ≠ path → d'.content path' = d.content path' := by
  have hkept {p : π} {inode' : Inode π}
      (hp : Function.update d.names path none p = some inode') : d.names p = some inode' := by
    rw [Function.update_apply] at hp
    split_ifs at hp
    exact hp
  refine ⟨_, by rw [remove, hname]; rfl, ⟨?_, ?_⟩, fun path' hne => ?_⟩
  · exact fun p p' inode' hp hp' => hs.once p p' inode' (hkept hp) (hkept hp')
  · exact fun p n hp => hs.below p n (hkept hp)
  · unfold content
    dsimp only
    rw [Function.update_of_ne hne]

end Disk

end OpenFiles
