import Crashlens.InstanceAdmins
import Crashlens.Library.Serial

/-!
# The spelling of a user id

The guard of `set_instance_admin` compares the target with the caller as texts, and its `UPDATE`
finds the target by the uuid the text stands for. So the last administrator is kept for the one
spelling `str` gives, and every other spelling of the same id removes the flag.
-/

namespace Crashlens.Admin

open Transactional

/-! ## Uuids as hexadecimal digits -/

abbrev Uuid128 := Fin (2 ^ 128)

def hexDigits : (width n : ℕ) → List Char
  | 0, _ => []
  | width + 1, n => hexDigits width (n / 16) ++ [Nat.digitChar (n % 16)]

def hyphenate (digits : List Char) : List Char :=
  digits.take 8 ++ '-' :: (digits.drop 8).take 4 ++ '-' :: (digits.drop 12).take 4 ++
    '-' :: (digits.drop 16).take 4 ++ '-' :: digits.drop 20

/-- `str(uuid)` -/
def uuidText (u : Uuid128) : String := String.ofList (hyphenate (hexDigits 32 u.val))

def hexValue? (c : Char) : Option ℕ :=
  if '0' ≤ c ∧ c ≤ '9' then some (c.toNat - 48)
  else if 'a' ≤ c ∧ c ≤ 'f' then some (c.toNat - 87)
  else if 'A' ≤ c ∧ c ≤ 'F' then some (c.toNat - 55)
  else none

def hexNumber (values : List ℕ) : ℕ := values.foldl (fun n d => 16 * n + d) 0

/-- Thirty-two digits in upper or lower case, with or without hyphens. -/
def parseUuid (s : String) : Option Uuid128 :=
  match (s.toList.filter fun c => c ≠ '-').mapM hexValue? with
  | some values => if values.length = 32 then some (Fin.ofNat _ (hexNumber values)) else none
  | none => none

section Uuids

theorem hexValue?_digitChar {d : ℕ} (h : d < 16) : hexValue? (Nat.digitChar d) = some d := by
  have hall : ∀ d : Fin 16, hexValue? (Nat.digitChar d.val) = some d.val := by decide
  exact hall ⟨d, h⟩

theorem hexValue?_toLower (c : Char) : hexValue? c.toLower = hexValue? c := by
  by_cases hupper : 65 ≤ c.toNat ∧ c.toNat ≤ 90
  · have hall : ∀ n : Fin 26, hexValue? (Char.ofNat (n.val + 65)).toLower =
        hexValue? (Char.ofNat (n.val + 65)) := by decide
    have h := hall ⟨c.toNat - 65, by omega⟩
    rwa [Nat.sub_add_cancel hupper.1, Char.ofNat_toNat] at h
  · have hsame : c.toLower = c := dif_neg fun h => hupper ⟨h.1, h.2⟩
    rw [hsame]

theorem mem_hexDigits {width n : ℕ} {c : Char} (h : c ∈ hexDigits width n) :
    ∃ d : Fin 16, c = Nat.digitChar d.val := by
  induction width generalizing n with
  | zero => cases h
  | succ width ih =>
      rcases List.mem_append.mp h with h | h
      · exact ih h
      · exact ⟨⟨n % 16, Nat.mod_lt n (by omega)⟩, List.mem_singleton.mp h⟩

theorem hexDigits_spec (width n : ℕ) : ∃ values, (hexDigits width n).mapM hexValue? = some values ∧
    values.length = width ∧ hexNumber values = n % 16 ^ width := by
  induction width generalizing n with
  | zero => exact ⟨[], rfl, rfl, (Nat.mod_one n).symm⟩
  | succ width ih =>
      obtain ⟨values, hvalues, hlength, hnumber⟩ := ih (n / 16)
      refine ⟨values ++ [n % 16], ?_, by simp [hlength], ?_⟩
      · rw [hexDigits, List.mapM_append, hvalues]
        simp [hexValue?_digitChar (Nat.mod_lt n (by omega))]
      · rw [hexNumber, List.foldl_append, ← hexNumber, hnumber, Nat.pow_succ', Nat.mod_mul]
        simp only [List.foldl_cons, List.foldl_nil]
        omega

theorem hyphenate_filter (digits : List Char) (h : ∀ c ∈ digits, c ≠ '-') :
    (hyphenate digits).filter (fun c => c ≠ '-') = digits := by
  have hpart : ∀ part : List Char, part.Sublist digits → part.filter (fun c => c ≠ '-') = part :=
    fun part hsub => List.filter_eq_self.mpr fun c hc => decide_eq_true (h c (hsub.subset hc))
  have hslice : ∀ k n, ((digits.drop k).take n).filter (fun c => c ≠ '-') =
      (digits.drop k).take n := fun k n =>
    hpart _ ((List.take_sublist ..).trans (List.drop_sublist ..))
  have hjoin : ∀ k, (digits.drop k).take 4 ++ digits.drop (k + 4) = digits.drop k := by
    intro k
    rw [← List.drop_drop, List.take_append_drop]
  simp only [hyphenate, List.filter_append, List.filter_cons_of_neg, ne_eq, not_true_eq_false,
    decide_false, Bool.false_eq_true, not_false_eq_true]
  rw [hpart _ (List.take_sublist ..), hslice, hslice, hslice, hpart _ (List.drop_sublist ..),
    List.append_assoc, List.append_assoc, hjoin 16, List.append_assoc, hjoin 12, hjoin 8,
    List.take_append_drop]

/-- Upper or lower case and the hyphens make no difference to the driver. -/
theorem parseUuid_of_spelling (s : String) (u : Uuid128)
    (h : (s.toList.filter fun c => c ≠ '-').map Char.toLower = hexDigits 32 u.val) :
    parseUuid s = some u := by
  obtain ⟨values, hvalues, hlength, hnumber⟩ := hexDigits_spec 32 u.val
  have hcase : hexValue? ∘ Char.toLower = hexValue? := funext hexValue?_toLower
  rw [← h, List.mapM_map, hcase] at hvalues
  rw [parseUuid, hvalues]
  simp only [hlength, if_true, hnumber]
  rw [Nat.mod_eq_of_lt (show u.val < 16 ^ 32 from u.isLt)]
  exact congrArg some (Fin.ofNat_val_eq_self u)

theorem parseUuid_uuidText (u : Uuid128) : parseUuid (uuidText u) = some u := by
  have hhyphen : ∀ d : Fin 16, Nat.digitChar d.val ≠ '-' := by decide
  have hlower : ∀ d : Fin 16, (Nat.digitChar d.val).toLower = Nat.digitChar d.val := by decide
  apply parseUuid_of_spelling
  rw [uuidText, String.toList_ofList, hyphenate_filter]
  · rw [List.map_congr_left, List.map_id]
    intro c hc
    obtain ⟨d, rfl⟩ := mem_hexDigits hc
    exact hlower d
  · intro c hc
    obtain ⟨d, rfl⟩ := mem_hexDigits hc
    exact hhyphen d

def hexUuids : UuidText Uuid128 where
  str := uuidText
  parse := parseUuid
  parse_str := parseUuid_uuidText

end Uuids

section Guard

variable {Uuid : Type} [DecidableEq Uuid] {uuids : UuidText Uuid} {users : Users Uuid}

/-- An administrator, and the only one. -/
structure Users.LoneAdmin (users : Users Uuid) (id : Uuid) : Prop where
  admin : users.isAdmin id = true
  alone : ∀ u ∈ users.rows, u.isInstanceAdmin = true → u.id = id

namespace Users.LoneAdmin

variable {acting : Uuid}

theorem count (h : users.LoneAdmin acting) : users.adminCount ≤ 1 := by
  by_contra hcount
  obtain ⟨u, hu, hflag, hne⟩ := exists_other_admin (not_le.mp hcount) acting
  exact hne (h.alone u hu hflag)

theorem found (h : users.LoneAdmin acting) :
    ∃ row, users.find? acting = some row := by
  obtain ⟨u, hu, hid⟩ := List.any_eq_true.mp h.admin
  simp only [Bool.and_eq_true, decide_eq_true_eq] at hid
  have hsome : (users.find? acting).isSome = true := by
    rw [Users.find?, List.find?_isSome]
    exact ⟨u, hu, decide_eq_true hid.1⟩
  obtain ⟨row, hrow⟩ := Option.isSome_iff_exists.mp hsome
  exact ⟨row, hrow⟩

theorem orphaned (h : users.LoneAdmin acting) : ¬ (users.setFlag acting false).HasAdmin := by
  rintro ⟨u, hu, hflag⟩
  obtain ⟨v, hv, rfl⟩ := List.mem_map.mp hu
  unfold UserRow.setFlag at hflag
  split at hflag
  · cases hflag
  · next hne => exact hne (h.alone v hv hflag)

theorem hasAdmin (h : users.LoneAdmin acting) : users.HasAdmin := by
  obtain ⟨u, hu, hid⟩ := List.any_eq_true.mp h.admin
  simp only [Bool.and_eq_true] at hid
  exact ⟨u, hu, hid.2⟩

/-- A target spelled as `str` spells it is the caller's own text, and the guard counts. -/
theorem serial_spelled (h : users.LoneAdmin acting) :
    (store uuids).serial (setInstanceAdmin (uuids.str acting) false (uuids.str acting)) () users =
      (.error .lastAdmin, users) := by
  suffices hruns : Runs (store uuids) () (setInstanceAdmin (uuids.str acting) false
      (uuids.str acting)) (store uuids).noWrites users (.error .lastAdmin) none users from
    hruns.serial_error
  refine .answer rfl ?_
  simp only [Program.pure_bind]
  rw [if_pos]
  · exact .raise ..
  · have hcount : (Pending.apply (store uuids).noWrites users).adminCount ≤ 1 := h.count
    simpa [wouldOrphanInstance] using hcount

/-- Under any other spelling the row is found and its flag goes. -/
theorem serial_unspelled (h : users.LoneAdmin acting) {target : String}
    (htarget : uuids.parse target = some acting) (hne : target ≠ uuids.str acting) :
    ∃ row, (store uuids).serial (setInstanceAdmin target false (uuids.str acting)) () users =
      (.ok row, users.setFlag acting false) := by
  obtain ⟨row, hrow⟩ := h.found
  refine ⟨row.setFlag acting false, ?_⟩
  suffices hruns : Runs (store uuids) () (setInstanceAdmin target false (uuids.str acting))
      (store uuids).noWrites users (.ok (row.setFlag acting false)) (some (acting, false)) users
    from hruns.serial_ok
  refine .answer rfl ?_
  simp only [Program.pure_bind]
  rw [if_neg (by simp [wouldOrphanInstance, hne])]
  have hexec : (store uuids).exec () users users none (.updateFlag target false) =
      .ok (some (row.setFlag acting false), some (acting, false), users) := by
    simp only [store, exec, htarget, Pending.apply, hrow]
  exact .answer hexec (.pure ..)

theorem orphans_unspelled (h : users.LoneAdmin acting) {target : String}
    (htarget : uuids.parse target = some acting) (hne : target ≠ uuids.str acting) :
    ¬ ((store uuids).serial (setInstanceAdmin target false (uuids.str acting)) ()
      users).2.HasAdmin := by
  obtain ⟨row, hserial⟩ := h.serial_unspelled htarget hne
  rw [hserial]
  exact h.orphaned

end Users.LoneAdmin

end Guard

section LastAdmin

variable {Uuid : Type} [DecidableEq Uuid]

/-- Of all the texts the database reads as the only administrator, the guard refuses the one that
`str` writes. -/
theorem lone_admin_kept_iff_spelled_as_str (uuids : UuidText Uuid) (users : Users Uuid)
    (acting : Uuid) (target : String) (h : users.LoneAdmin acting)
    (htarget : uuids.parse target = some acting) :
    (store uuids).serial (setInstanceAdmin target false (uuids.str acting)) () users =
        (.error .lastAdmin, users) ↔ target = uuids.str acting := by
  constructor
  · intro hserial
    by_contra hne
    obtain ⟨row, hok⟩ := h.serial_unspelled htarget hne
    rw [hok] at hserial
    cases hserial
  · rintro rfl
    exact h.serial_spelled

def rootId : Uuid128 := 0x5f0c9a3e7d214b8890acde1122334455

def rootOnly : Users Uuid128 where
  rows := [⟨rootId, "root@example.com", true⟩, ⟨7, "dev@example.com", false⟩]
  key := by decide

theorem rootOnly_lone : rootOnly.LoneAdmin rootId where
  admin := by decide
  alone := by decide

theorem root_kept_as_spelled :
    (store hexUuids).serial (setInstanceAdmin "5f0c9a3e-7d21-4b88-90ac-de1122334455" false
      (hexUuids.str rootId)) () rootOnly = (.error .lastAdmin, rootOnly) :=
  (lone_admin_kept_iff_spelled_as_str hexUuids rootOnly rootId _ rootOnly_lone
    (by decide +kernel)).mpr (by decide +kernel)

theorem root_removed_in_upper_case :
    ¬ ∀ (users : Users Uuid128) (acting : Uuid128) (target : String),
      users.LoneAdmin acting → hexUuids.parse target = some acting →
        (store hexUuids).serial (setInstanceAdmin target false (hexUuids.str acting)) () users =
          (.error .lastAdmin, users) := by
  intro hall
  let target := "5F0C9A3E-7D21-4B88-90AC-DE1122334455"
  have hparse : hexUuids.parse target = some rootId := by decide +kernel
  have hne : target ≠ hexUuids.str rootId := by decide +kernel
  have horphans := rootOnly_lone.orphans_unspelled hparse hne
  rw [hall rootOnly rootId target rootOnly_lone hparse] at horphans
  exact horphans rootOnly_lone.hasAdmin

end LastAdmin

end Crashlens.Admin
