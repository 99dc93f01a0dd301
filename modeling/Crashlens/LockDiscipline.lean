import Crashlens.TransactionSpec
import Crashlens.Library.Discipline

/-!
# Row locks keep pending writes and committed rows coherent

`Db.Valid` are the constraints the schema enforces on committed rows. A write set `Fits` them when
its commit keeps them, and two write sets are `Apart` when neither touches a row or a unique key of
the other. A statement that is not blocked leaves its transaction's writes fitting and apart from
those of every other transaction, so that a commit cannot invalidate anyone else.
-/

namespace Crashlens

open Transactional

structure Db.Valid (db : Db) : Prop where
  keys : (db.issues.map Issue.key).Nodup
  ids : (db.issues.map Issue.id).Nodup
  idsFresh : ∀ r ∈ db.issues, r.id < db.nextId
  eventIds : ∀ e ∈ db.events, e.issueId < db.nextId
  releaseKeys : (db.releases.map Release.key).Nodup

theorem Db.Valid.eq_of_id {db : Db} (h : db.Valid) {a b : Issue} (ha : a ∈ db.issues)
    (hb : b ∈ db.issues) (hid : a.id = b.id) : a = b := List.inj_on_of_nodup_map h.ids ha hb hid

theorem Db.Valid.eq_of_key {db : Db} (h : db.Valid) {a b : Issue} (ha : a ∈ db.issues)
    (hb : b ∈ db.issues) (hkey : a.key = b.key) : a = b :=
  List.inj_on_of_nodup_map h.keys ha hb hkey

def IssueWrite.Fits (db : Db) : IssueWrite → Prop
  | .insert row => row.key ∉ db.issues.map Issue.key ∧ row.id ∉ db.issues.map Issue.id ∧
      row.id < db.nextId ∧ ∀ e ∈ db.events, e.issueId ≠ row.id
  | .update old new => old ∈ db.issues ∧ new.id = old.id ∧ new.key = old.key
  | .delete old => old ∈ db.issues

def IssueWrite.Apart (a b : IssueWrite) : Prop :=
  a.key ≠ b.key ∧ ∀ r r', a = .insert r → b = .insert r' → r.id ≠ r'.id

structure WriteSet.Fits (w : WriteSet) (db : Db) : Prop where
  issue : ∀ iw, w.issue = some iw → iw.Fits db
  release : ∀ r, w.release = some r → r.key ∉ db.releases.map Release.key
  event : ∀ e, w.event = some e → ∃ iw, w.issue = some iw ∧ iw.newId = some e.issueId

structure WriteSet.Apart (w w' : WriteSet) : Prop where
  issue : ∀ iw iw', w.issue = some iw → w'.issue = some iw' → iw.Apart iw'
  release : ∀ r r', w.release = some r → w'.release = some r' → r.key ≠ r'.key

theorem WriteSet.Apart.symm {w w' : WriteSet} (h : w.Apart w') : w'.Apart w :=
  ⟨fun iw iw' hi hi' => ⟨(h.issue iw' iw hi' hi).1.symm,
    fun r r' hr hr' => ((h.issue iw' iw hi' hi).2 r' r hr' hr).symm⟩,
    fun r r' hr hr' => (h.release r' r hr' hr).symm⟩

theorem fits_empty (db : Db) : WriteSet.empty.Fits db :=
  ⟨fun _ h => (by cases h), fun _ h => (by cases h), fun _ h => (by cases h)⟩

theorem WriteSet.Fits.event_none {w : WriteSet} {db : Db} (h : w.Fits db) (hi : w.issue = none) :
    w.event = none := by
  cases he : w.event with
  | none => rfl
  | some e =>
      obtain ⟨iw, hiw, -⟩ := h.event e he
      rw [hi] at hiw
      cases hiw

/-! ## Commits -/

section Commit

variable {db : Db} {w : WriteSet}

theorem apply_issues_some {iw : IssueWrite} (h : w.issue = some iw) :
    (w.apply db).issues = iw.apply db.issues := by simp only [WriteSet.apply, h]

theorem apply_issues_none (h : w.issue = none) : (w.apply db).issues = db.issues := by
  simp only [WriteSet.apply, h]

@[simp] theorem apply_releases : (w.apply db).releases = db.releases ++ w.release.toList := rfl

@[simp] theorem apply_events : (w.apply db).events = db.events ++ w.event.toList := rfl

@[simp] theorem apply_nextId : (w.apply db).nextId = db.nextId := rfl

@[simp] theorem apply_empty : WriteSet.empty.apply db = db := by
  simp [WriteSet.apply, WriteSet.empty]

theorem update_map_eq {β : Type} (hv : db.Valid) {old new : Issue} (hold : old ∈ db.issues)
    (f : Issue → β) (hf : f new = f old) :
    (IssueWrite.apply (.update old new) db.issues).map f = db.issues.map f := by
  rw [IssueWrite.apply, List.map_map]
  apply List.map_congr_left
  intro r hr
  by_cases hid : r.id = old.id
  · rw [Function.comp_apply, if_pos hid, hf, hv.eq_of_id hr hold hid]
  · rw [Function.comp_apply, if_neg hid]

theorem mem_apply_update {old new r : Issue} :
    r ∈ IssueWrite.apply (.update old new) db.issues →
      r = new ∨ r ∈ db.issues ∧ r.id ≠ old.id := by
  intro h
  obtain ⟨r', hr', heq⟩ := List.mem_map.mp h
  by_cases hid : r'.id = old.id
  · rw [if_pos hid] at heq
    exact .inl heq.symm
  · rw [if_neg hid] at heq
    exact .inr ⟨heq ▸ hr', heq ▸ hid⟩

/-- A commit keeps the constraints of the schema. -/
theorem WriteSet.Fits.valid_apply (hv : db.Valid) (hw : w.Fits db) : (w.apply db).Valid := by
  have hrel : ((w.apply db).releases.map Release.key).Nodup := by
    cases hr : w.release with
    | none => simpa [hr] using hv.releaseKeys
    | some r =>
        rw [apply_releases, hr, Option.toList_some, List.map_append, List.map_singleton]
        exact List.nodup_append.mpr ⟨hv.releaseKeys, List.nodup_singleton _, by
          simpa using fun r' hr' heq => hw.release r hr (List.mem_map.mpr ⟨r', hr', heq⟩)⟩
  have hev (hnew : ∀ iw id, w.issue = some iw → iw.newId = some id → id < db.nextId) :
      ∀ e ∈ (w.apply db).events, e.issueId < db.nextId := by
    intro e he
    rw [apply_events, List.mem_append, Option.mem_toList] at he
    obtain he | he := he
    · exact hv.eventIds e he
    · obtain ⟨iw, hi, hid⟩ := hw.event e he
      exact hnew iw _ hi hid
  cases hi : w.issue with
  | none =>
      have hiss : (w.apply db).issues = db.issues := apply_issues_none hi
      exact ⟨hiss ▸ hv.keys, hiss ▸ hv.ids, hiss ▸ hv.idsFresh,
        hev fun iw _ h => (by rw [hi] at h; cases h), hrel⟩
  | some iw =>
      have hiss : (w.apply db).issues = iw.apply db.issues := apply_issues_some hi
      have hfit := hw.issue iw hi
      cases iw with
      | insert row =>
          obtain ⟨hkey, hid, hlt, -⟩ := hfit
          refine ⟨?_, ?_, ?_, hev ?_, hrel⟩
          · rw [hiss, IssueWrite.apply, List.map_append, List.map_singleton]
            exact List.nodup_append.mpr ⟨hv.keys, List.nodup_singleton _, by
              simpa using fun r hr heq => hkey (List.mem_map.mpr ⟨r, hr, heq⟩)⟩
          · rw [hiss, IssueWrite.apply, List.map_append, List.map_singleton]
            exact List.nodup_append.mpr ⟨hv.ids, List.nodup_singleton _, by
              simpa using fun r hr heq => hid (List.mem_map.mpr ⟨r, hr, heq⟩)⟩
          · intro r hr
            rw [hiss, IssueWrite.apply, List.mem_append, List.mem_singleton] at hr
            obtain hr | rfl := hr
            · exact hv.idsFresh r hr
            · exact hlt
          · intro iw' id hi' hnew
            rw [hi] at hi'
            cases hi'
            cases hnew
            exact hlt
      | update old new =>
          obtain ⟨hold, hid, hkey⟩ := hfit
          refine ⟨?_, ?_, ?_, hev ?_, hrel⟩
          · rw [hiss, update_map_eq hv hold Issue.key hkey]
            exact hv.keys
          · rw [hiss, update_map_eq hv hold Issue.id hid]
            exact hv.ids
          · intro r hr
            rw [hiss] at hr
            obtain rfl | ⟨hr, -⟩ := mem_apply_update hr
            · exact hid ▸ hv.idsFresh old hold
            · exact hv.idsFresh r hr
          · intro iw' id hi' hnew
            rw [hi] at hi'
            cases hi'
            cases hnew
            exact hid ▸ hv.idsFresh old hold
      | delete old =>
          have hsub : (IssueWrite.apply (.delete old) db.issues).Sublist db.issues :=
            List.filter_sublist
          refine ⟨?_, ?_, ?_, hev ?_, hrel⟩
          · exact hiss ▸ hv.keys.sublist (hsub.map _)
          · exact hiss ▸ hv.ids.sublist (hsub.map _)
          · exact fun r hr => hv.idsFresh r (hsub.subset (hiss ▸ hr))
          · intro iw' id hi' hnew
            rw [hi] at hi'
            cases hi'
            cases hnew

/-- Every key and id of the issues after a commit was there before or was just inserted. -/
theorem mem_apply_issues {β : Type} (f : Issue → β) {iw : IssueWrite}
    (hf : ∀ old new, iw = .update old new → old ∈ db.issues ∧ f new = f old) {x : β}
    (hx : x ∈ (iw.apply db.issues).map f) :
    x ∈ db.issues.map f ∨ ∃ row, iw = .insert row ∧ x = f row := by
  obtain ⟨r, hr, rfl⟩ := List.mem_map.mp hx
  cases iw with
  | insert row =>
      rw [IssueWrite.apply, List.mem_append, List.mem_singleton] at hr
      obtain hr | rfl := hr
      · exact .inl (List.mem_map_of_mem hr)
      · exact .inr ⟨r, rfl, rfl⟩
  | update old new =>
      obtain ⟨hold, hfn⟩ := hf old new rfl
      obtain rfl | ⟨hr, -⟩ := mem_apply_update hr
      · exact .inl (hfn ▸ List.mem_map_of_mem hold)
      · exact .inl (List.mem_map_of_mem hr)
  | delete old => exact .inl (List.mem_map_of_mem (List.mem_of_mem_filter hr))

/-- A committed row that changes is the one the transaction updated. -/
theorem commit_row {w : WriteSet} (hdb : db.Valid) (hfit : w.Fits db) {r r' : Issue}
    (hr : r ∈ db.issues) (hr' : r' ∈ (w.apply db).issues) (hid : r'.id = r.id) :
    r' = r ∨ w.issue = some (.update r r') := by
  cases hi : w.issue with
  | none =>
      rw [apply_issues_none hi] at hr'
      exact .inl (hdb.eq_of_id hr' hr hid)
  | some iw =>
      rw [apply_issues_some hi] at hr'
      have hfit' := hfit.issue iw hi
      cases iw with
      | insert row =>
          rw [IssueWrite.apply, List.mem_append, List.mem_singleton] at hr'
          obtain hr' | rfl := hr'
          · exact .inl (hdb.eq_of_id hr' hr hid)
          · exact absurd (List.mem_map.mpr ⟨r, hr, hid.symm⟩) hfit'.2.1
      | update old new =>
          obtain ⟨hold, hnew, -⟩ := hfit'
          obtain rfl | ⟨hr', -⟩ := mem_apply_update hr'
          · rw [hdb.eq_of_id hr hold (hid.symm.trans hnew)]
            exact .inr rfl
          · exact .inl (hdb.eq_of_id hr' hr hid)
      | delete old => exact .inl (hdb.eq_of_id (List.mem_of_mem_filter hr') hr hid)

/-- The rows another transaction has locked survive a commit as they are. -/
theorem mem_apply_of_apart (hv : db.Valid) {iw : IssueWrite} (hfit : iw.Fits db) {r : Issue}
    (hr : r ∈ db.issues) (hkey : iw.key ≠ r.key) : r ∈ iw.apply db.issues := by
  have hne (old : Issue) (hold : old ∈ db.issues) (hk : old.key ≠ r.key) : r.id ≠ old.id :=
    fun hid => hk (hv.eq_of_id hr hold hid ▸ rfl)
  cases iw with
  | insert row => exact List.mem_append_left _ hr
  | update old new => exact List.mem_map.mpr ⟨r, hr, if_neg (hne old hfit.1 hkey)⟩
  | delete old => exact List.mem_filter.mpr ⟨hr, by simpa using hne old hfit hkey⟩

/-- A commit leaves the writes of every other transaction fitting. -/
theorem WriteSet.Fits.stable (hv : db.Valid) (hw : w.Fits db) {w' : WriteSet} (hw' : w'.Fits db)
    (hapart : w.Apart w') : w'.Fits (w.apply db) := by
  refine ⟨fun iw' hi' => ?_, fun r' hr' => ?_, hw'.event⟩
  · have hfit' := hw'.issue iw' hi'
    cases hi : w.issue with
    | none =>
        have hiss : (w.apply db).issues = db.issues := apply_issues_none hi
        have hev := hw.event_none hi
        cases iw' with
        | insert row => simpa [IssueWrite.Fits, hiss, hev] using hfit'
        | update old new => simpa [IssueWrite.Fits, hiss] using hfit'
        | delete old => simpa [IssueWrite.Fits, hiss] using hfit'
    | some iw =>
        have hiss : (w.apply db).issues = iw.apply db.issues := apply_issues_some hi
        have hfit := hw.issue iw hi
        obtain ⟨hkeys, hids⟩ := hapart.issue iw iw' hi hi'
        cases iw' with
        | insert row' =>
            obtain ⟨hkey, hid, hlt, hne⟩ := hfit'
            refine ⟨fun hmem => ?_, fun hmem => ?_, hlt, fun e he => ?_⟩
            · rw [hiss] at hmem
              obtain hmem | ⟨row, rfl, heq⟩ := mem_apply_issues Issue.key
                (fun old new h => by subst h; exact ⟨hfit.1, hfit.2.2⟩) hmem
              · exact hkey hmem
              · exact hkeys heq.symm
            · rw [hiss] at hmem
              obtain hmem | ⟨row, rfl, heq⟩ := mem_apply_issues Issue.id
                (fun old new h => by subst h; exact ⟨hfit.1, hfit.2.1⟩) hmem
              · exact hid hmem
              · exact hids row row' rfl rfl heq.symm
            · rw [apply_events, List.mem_append, Option.mem_toList] at he
              obtain he | he := he
              · exact hne e he
              · obtain ⟨iw₂, hi₂, hnew⟩ := hw.event e he
                rw [hi] at hi₂
                cases hi₂
                cases iw with
                | insert row => exact Option.some.inj hnew ▸ hids row row' rfl rfl
                | update old new =>
                    intro heq
                    have hnew' : new.id = row'.id := (Option.some.inj hnew).trans heq
                    exact hid (hnew' ▸ hfit.2.1 ▸ List.mem_map_of_mem hfit.1)
                | delete old => cases hnew
        | update old' new' =>
            exact ⟨hiss ▸ mem_apply_of_apart hv hfit hfit'.1 hkeys, hfit'.2⟩
        | delete old' =>
            have hmem := mem_apply_of_apart hv hfit (show old' ∈ db.issues from hfit') hkeys
            rwa [← hiss] at hmem
  · rw [apply_releases, List.map_append, List.mem_append]
    rintro (hmem | hmem)
    · exact hw'.release r' hr' hmem
    · obtain ⟨r, hr, heq⟩ := List.mem_map.mp hmem
      exact hapart.release r r' (Option.mem_toList.mp hr) hr' heq

/-- The event rows of one `(project_id, event_id)`. -/
def Db.rowsOf (db : Db) (p eventId : ℕ) : ℕ :=
  db.events.countP fun e => e.projectId = p ∧ e.eventId = eventId

theorem rowsOf_apply (w : WriteSet) (p eventId : ℕ) :
    (w.apply db).rowsOf p eventId = db.rowsOf p eventId +
      w.event.toList.countP fun e => e.projectId = p ∧ e.eventId = eventId := by
  rw [Db.rowsOf, apply_events, List.countP_append, Db.rowsOf]

theorem rowsOf_le_apply (w : WriteSet) (p eventId : ℕ) :
    db.rowsOf p eventId ≤ (w.apply db).rowsOf p eventId := by
  rw [rowsOf_apply]
  omega

theorem rowsOf_eq_zero_iff {p eventId : ℕ} : db.rowsOf p eventId = 0 ↔
    (db.events.any fun e => e.projectId = p ∧ e.eventId = eventId) = false := by
  rw [Db.rowsOf, List.countP_eq_zero, List.any_eq_false]

end Commit

/-! ## Statements -/

section Rows

variable {pg : Postgres} {db : Db}

theorem findIssue_some {p : ℕ} {f : Text} {r : Issue} (h : findIssue db p f = some r) :
    r ∈ db.issues ∧ r.key = (p, f) :=
  ⟨List.mem_of_find?_eq_some h, by simpa using List.find?_some h⟩

theorem findIssue_none {p : ℕ} {f : Text} (h : findIssue db p f = none) :
    (p, f) ∉ db.issues.map Issue.key := by
  intro hmem
  obtain ⟨r, hr, hkey⟩ := List.mem_map.mp hmem
  exact List.find?_eq_none.mp h r hr (by simpa using hkey)

theorem findIssue_of_mem (hdb : db.Valid) {r : Issue} (hr : r ∈ db.issues) {p : ℕ} {f : Text}
    (hkey : r.key = (p, f)) : findIssue db p f = some r := by
  cases hfound : findIssue db p f with
  | none => exact absurd (List.mem_map.mpr ⟨r, hr, hkey⟩) (findIssue_none hfound)
  | some r' =>
      obtain ⟨hr', hkey'⟩ := findIssue_some hfound
      rw [hdb.eq_of_key hr' hr (hkey'.trans hkey.symm)]

theorem findIssueById_some {i p : ℕ} {r : Issue} (h : findIssueById db i p = some r) :
    r ∈ db.issues ∧ r.id = i ∧ r.projectId = p :=
  ⟨List.mem_of_find?_eq_some h, by simpa using List.find?_some h⟩

theorem releaseCreatedAt_some {p : ℕ} {v : Text} {t : Timestamp}
    (h : releaseCreatedAt db p v = some t) : ⟨p, v, t⟩ ∈ db.releases := by
  obtain ⟨r, hr, rfl⟩ := Option.map_eq_some_iff.mp h
  have hkey : r.key = (p, v) := by simpa using List.find?_some hr
  obtain ⟨rfl, rfl⟩ := Prod.mk.inj hkey
  exact List.mem_of_find?_eq_some hr

theorem releaseCreatedAt_of_mem (hdb : db.Valid) {p : ℕ} {v : Text} {t : Timestamp}
    (h : ⟨p, v, t⟩ ∈ db.releases) : releaseCreatedAt db p v = some t := by
  cases hr : db.releases.find? fun r => r.key = (p, v) with
  | none => exact absurd (by simp [Release.key]) (List.find?_eq_none.mp hr _ h)
  | some r =>
      have hkey : r.key = (p, v) := by simpa using List.find?_some hr
      have heq : r = ⟨p, v, t⟩ :=
        List.inj_on_of_nodup_map hdb.releaseKeys (List.mem_of_find?_eq_some hr) h hkey
      rw [releaseCreatedAt, hr, heq]
      rfl

@[simp] theorem onConflict_id (p : UpsertIssue) (r : Issue) : (p.onConflict r).id = r.id := rfl

@[simp] theorem set_id (a : StatusAction) (r : Issue) : (a.set pg db r).id = r.id := by
  cases a <;> rfl

@[simp] theorem set_key (a : StatusAction) (r : Issue) : (a.set pg db r).key = r.key := by
  cases a <;> rfl

end Rows

section Statement

variable {pg : Postgres} {s t : Session} {snap c c' : Db} {q : Request}

/-- The issue rows a statement may change when it meets one. -/
def Request.Targets (q : Request) (old : Issue) : Prop :=
  (∃ p : UpsertIssue, q = .upsertIssue p ∧ old.key = (p.projectId, p.fingerprint)) ∨
    (∃ a p, q = .updateStatus a old.id p) ∨ (∃ u p, q = .updateAssignee u old.id p) ∨
    ∃ p, q = .deleteIssue old.id p

/-- Everything one statement can do to the writes of its transaction. -/
theorem executes_cases (h : (store pg).Executes s snap c q t c') :
    (t.writes.issue = s.writes.issue ∧ t.writes.event = s.writes.event ∧
      t.writes.release = s.writes.release ∧ c' = c) ∨
    (∃ p v, q = .upsertRelease p v ∧ (p, v) ∉ (s.writes.apply c).releases.map Release.key ∧
      t.writes = { s.writes with release := some ⟨p, v, s.now⟩ } ∧ c' = c) ∨
    (∃ p, q = .upsertIssue p ∧
      (p.projectId, p.fingerprint) ∉ (s.writes.apply c).issues.map Issue.key ∧
      t.writes = { s.writes with issue := some (.insert (p.newRow c.nextId)) } ∧
      c' = { c with nextId := c.nextId + 1 }) ∨
    (∃ old iw, q.Targets old ∧ old ∈ (s.writes.apply c).issues ∧
      (iw = .delete old ∨ ∃ new, iw = .update old new ∧ new.id = old.id ∧ new.key = old.key) ∧
      t.writes = { s.writes with issue := some iw } ∧ c' = c) ∨
    (∃ e, q = .insertEvent e ∧ t.writes = { s.writes with event := some e } ∧ c' = c) := by
  obtain ⟨r, d, he, rfl⟩ := h
  cases q with
  | upsertRelease p v =>
      simp only [store, exec] at he
      split_ifs at he with hfit hknown
      · cases he
        exact .inl ⟨rfl, rfl, rfl, rfl⟩
      · cases he
        refine .inr (.inl ⟨p, v, rfl, fun hmem => hknown ?_, rfl, rfl⟩)
        obtain ⟨r, hr, hkey⟩ := List.mem_map.mp hmem
        exact List.any_eq_true.mpr ⟨r, hr, by simpa using hkey⟩
  | upsertIssue p =>
      simp only [store, exec] at he
      split at he
      · next old hold =>
          cases he
          obtain ⟨hmem, hkey⟩ := findIssue_some hold
          exact .inr (.inr (.inr (.inl ⟨old, _, .inl ⟨p, rfl, hkey⟩, hmem,
            .inr ⟨p.onConflict old, rfl, rfl, rfl⟩, rfl, rfl⟩)))
      · next hnone =>
          split_ifs at he
          cases he
          exact .inr (.inr (.inl ⟨p, rfl, findIssue_none hnone, rfl, rfl⟩))
  | insertEvent e =>
      simp only [store, exec] at he
      split_ifs at he
      cases he
      exact .inr (.inr (.inr (.inr ⟨e, rfl, rfl, rfl⟩)))
  | updateStatus a i p =>
      simp only [store, exec] at he
      obtain hn | ⟨old, -, hold, hu⟩ := updateIssue_cases (s.writes.apply snap) (s.writes.apply c)
        i p (fun r => a.set pg (s.writes.apply snap) r) s.writes
      · rw [hn] at he
        cases he
        exact .inl ⟨rfl, rfl, rfl, rfl⟩
      · rw [hu] at he
        cases he
        obtain ⟨hmem, rfl, -⟩ := findIssueById_some hold
        exact .inr (.inr (.inr (.inl ⟨old, _, .inr (.inl ⟨a, p, rfl⟩), hmem,
          .inr ⟨_, rfl, set_id a old, set_key a old⟩, rfl, rfl⟩)))
  | updateAssignee u i p =>
      simp only [store, exec] at he
      obtain hn | ⟨old, -, hold, hu⟩ := updateIssue_cases (s.writes.apply snap) (s.writes.apply c)
        i p (fun r => { r with assignedTo := u }) s.writes
      · rw [hn] at he
        cases he
        exact .inl ⟨rfl, rfl, rfl, rfl⟩
      · rw [hu] at he
        cases he
        obtain ⟨hmem, rfl, -⟩ := findIssueById_some hold
        exact .inr (.inr (.inr (.inl ⟨old, _, .inr (.inr (.inl ⟨u, p, rfl⟩)), hmem,
          .inr ⟨{ old with assignedTo := u }, rfl, rfl, rfl⟩, rfl, rfl⟩)))
  | deleteIssue i p =>
      simp only [store, exec] at he
      split at he
      · next hs hold =>
          cases he
          obtain ⟨hmem, rfl, -⟩ := findIssueById_some hold
          exact .inr (.inr (.inr (.inl ⟨_, _, .inr (.inr (.inr ⟨p, rfl⟩)), hmem, .inl rfl, rfl,
            rfl⟩)))
      · cases he
        exact .inl ⟨rfl, rfl, rfl, rfl⟩
  | insertAudit row =>
      cases he
      exact .inl ⟨rfl, rfl, rfl, rfl⟩
  | dedupeEvent p e =>
      cases he
      exact .inl ⟨rfl, rfl, rfl, rfl⟩
  | priorIssue p f =>
      cases he
      exact .inl ⟨rfl, rfl, rfl, rfl⟩
  | releaseCreatedAt p v =>
      cases he
      exact .inl ⟨rfl, rfl, rfl, rfl⟩
  | loadProject p =>
      cases he
      exact .inl ⟨rfl, rfl, rfl, rfl⟩
  | isMember u =>
      cases he
      exact .inl ⟨rfl, rfl, rfl, rfl⟩

theorem Request.Targets.unlocked {old : Issue} (hq : q.Targets old)
    (hpre : Pre q s) : s.writes.issue = none := by
  obtain ⟨p, rfl, -⟩ | ⟨a, p, rfl⟩ | ⟨u, p, rfl⟩ | ⟨p, rfl⟩ := hq
  · exact hpre.1
  · exact hpre
  · exact hpre
  · exact hpre

/-- A statement that is not blocked meets a row that no other transaction has touched. -/
theorem Request.Targets.key_ne (hc : c.Valid) {old : Issue} (hq : q.Targets old)
    (hold : old ∈ c.issues) {w : WriteSet} (hfree : blocks w q = false) {iw : IssueWrite}
    (hi : w.issue = some iw) (hfit : iw.Fits c) : old.key ≠ iw.key := by
  have hlock (h : iw.locksId old.id = false) : old.key ≠ iw.key := by
    cases iw with
    | insert row => exact fun hk => hfit.1 (List.mem_map.mpr ⟨old, hold, hk⟩)
    | update old' new =>
        have hid : old'.id ≠ old.id := by simpa [IssueWrite.locksId] using h
        exact fun hk => hid (hc.eq_of_key hold hfit.1 hk ▸ rfl)
    | delete old' =>
        have hid : old'.id ≠ old.id := by simpa [IssueWrite.locksId] using h
        exact fun hk => hid (hc.eq_of_key hold hfit hk ▸ rfl)
  obtain ⟨p, rfl, hkey⟩ | ⟨a, p, rfl⟩ | ⟨u, p, rfl⟩ | ⟨p, rfl⟩ := hq
  · have hne : iw.key ≠ (p.projectId, p.fingerprint) := by simpa [blocks, hi] using hfree
    exact fun hk => hne (hk ▸ hkey)
  · exact hlock (by simpa [blocks, hi] using hfree)
  · exact hlock (by simpa [blocks, hi] using hfree)
  · exact hlock (by simpa [blocks, hi] using hfree)

/-- The issue row a transaction has written is the only one it writes. -/
theorem executes_issue_kept (h : (store pg).Executes s snap c q t c') (hpre : Pre q s)
    (hi : s.writes.issue ≠ none) : t.writes.issue = s.writes.issue := by
  obtain ⟨hi', -⟩ | ⟨p, v, -, -, hw, -⟩ | ⟨p, rfl, -⟩ | ⟨old, iw, hq, -⟩ | ⟨e, -, hw, -⟩ :=
    executes_cases h
  · exact hi'
  · rw [hw]
  · exact absurd hpre.1 hi
  · exact absurd (hq.unlocked hpre) hi
  · rw [hw]

/-- A statement leaves its transaction's writes fitting. -/
theorem executes_fits (h : (store pg).Executes s snap c q t c') (hpre : Pre q s) (hc : c.Valid)
    (hs : s.writes.Fits c) : c'.Valid ∧ t.writes.Fits c' := by
  obtain ⟨hi, he, hr, rfl⟩ | ⟨p, v, -, hnew, hw, rfl⟩ | ⟨p, rfl, hnew, hw, rfl⟩ |
    ⟨old, iw, hq, hold, hiw, hw, rfl⟩ | ⟨e, rfl, hw, rfl⟩ := executes_cases h
  · exact ⟨hc, hi ▸ hs.issue, hr ▸ hs.release, by rw [he, hi]; exact hs.event⟩
  · refine ⟨hc, hw ▸ hs.issue, fun r hr => ?_, hw ▸ hs.event⟩
    rw [hw] at hr
    cases hr
    intro hmem
    exact hnew (by rw [apply_releases, List.map_append]; exact List.mem_append_left _ hmem)
  · have hnone := hpre.1
    rw [apply_issues_none hnone] at hnew
    have hev := hs.event_none hnone
    refine ⟨⟨hc.keys, hc.ids, ?_, ?_, hc.releaseKeys⟩, fun iw hiw => ?_, hw ▸ hs.release, ?_⟩
    · exact fun r hr => Nat.lt_succ_of_lt (hc.idsFresh r hr)
    · exact fun e he => Nat.lt_succ_of_lt (hc.eventIds e he)
    · rw [hw] at hiw
      cases hiw
      refine ⟨hnew, fun hmem => ?_, Nat.lt_succ_self _, fun e he => ?_⟩
      · obtain ⟨r, hr, hid⟩ := List.mem_map.mp hmem
        exact absurd hid (Nat.ne_of_lt (hc.idsFresh r hr))
      · exact Nat.ne_of_lt (hc.eventIds e he)
    · intro e he
      rw [hw] at he
      rw [show s.writes.event = none from hev] at he
      cases he
  · have hnone := hq.unlocked hpre
    rw [apply_issues_none hnone] at hold
    refine ⟨hc, fun iw' hiw' => ?_, hw ▸ hs.release, fun e he => ?_⟩
    · rw [hw] at hiw'
      cases hiw'
      obtain rfl | ⟨new, rfl, hid, hkey⟩ := hiw
      · exact hold
      · exact ⟨hold, hid, hkey⟩
    · rw [hw, show s.writes.event = none from hs.event_none hnone] at he
      cases he
  · refine ⟨hc, hw ▸ hs.issue, hw ▸ hs.release, fun e' he' => ?_⟩
    rw [hw] at he' ⊢
    cases he'
    exact hpre.2

theorem WriteSet.Fits.bump {w : WriteSet} (h : w.Fits c) :
    w.Fits { c with nextId := c.nextId + 1 } := by
  refine ⟨fun iw hi => ?_, h.release, h.event⟩
  have hfit := h.issue iw hi
  cases iw with
  | insert row => exact ⟨hfit.1, hfit.2.1, Nat.lt_succ_of_lt hfit.2.2.1, hfit.2.2.2⟩
  | update old new => exact hfit
  | delete old => exact hfit

/-- A statement that is not blocked leaves its transaction apart from the others. -/
theorem executes_stable (h : (store pg).Executes s snap c q t c') (hpre : Pre q s) (hc : c.Valid)
    {w : WriteSet} (hfree : blocks w q = false) (hw : w.Fits c) (hapart : s.writes.Apart w) :
    w.Fits c' ∧ t.writes.Apart w := by
  obtain ⟨hi, -, hr, rfl⟩ | ⟨p, v, rfl, hnew, ht, rfl⟩ | ⟨p, rfl, hnew, ht, rfl⟩ |
    ⟨old, iw, hq, hold, hiw, ht, rfl⟩ | ⟨e, rfl, ht, rfl⟩ := executes_cases h
  · exact ⟨hw, hi ▸ hapart.issue, hr ▸ hapart.release⟩
  · refine ⟨hw, ht ▸ hapart.issue, fun r r' hr hr' => ?_⟩
    rw [ht] at hr
    cases hr
    have hne : r'.key ≠ (p, v) := by simpa [blocks, hr'] using hfree
    exact hne.symm
  · refine ⟨hw.bump, fun iw iw' hiw hiw' => ?_, ht ▸ hapart.release⟩
    rw [ht] at hiw
    cases hiw
    have hne : iw'.key ≠ (p.projectId, p.fingerprint) := by simpa [blocks, hiw'] using hfree
    refine ⟨hne.symm, fun r r' hr hr' => ?_⟩
    cases hr
    subst hr'
    exact (Nat.ne_of_lt (hw.issue _ hiw').2.2.1).symm
  · have hnone := hq.unlocked hpre
    rw [apply_issues_none hnone] at hold
    refine ⟨hw, fun iw₁ iw' hiw₁ hiw' => ?_, ht ▸ hapart.release⟩
    rw [ht] at hiw₁
    cases hiw₁
    have hne := hq.key_ne hc hold hfree hiw' (hw.issue _ hiw')
    obtain rfl | ⟨new, rfl, -, -⟩ := hiw
    · exact ⟨hne, fun r r' hr => by cases hr⟩
    · exact ⟨hne, fun r r' hr => by cases hr⟩
  · exact ⟨hw, ht ▸ hapart.issue, ht ▸ hapart.release⟩

variable {ι : Type}

/-- The locks of the issue tracker, with any number of transactions under way. -/
def lockDiscipline (pg : Postgres) (rt : Runtime) (jobs : ι → Job) :
    Discipline (store pg) Pre fun i => JobPost pg rt (jobs i) where
  Valid := Db.Valid
  Fits s db := s.writes.Fits db
  Apart := WriteSet.Apart
  Seen _ _ := True
  apart_symm h := h.symm
  init_fits _ _ := fits_empty _
  init_apart _ := ⟨fun _ _ h => (by cases h), fun _ _ h => (by cases h)⟩
  seen_refl _ := trivial
  exec_fits h hpre hc _ hs := executes_fits h hpre hc hs
  exec_stable h hpre hc _ hfree hw hapart := executes_stable h hpre hc hfree hw hapart
  exec_seen _ _ _ := trivial
  commit_valid _ hc hs := hs.valid_apply hc
  commit_stable hc hs hs' hapart := hs.stable hc hs' hapart
  commit_seen _ _ _ := trivial

end Statement

/-! ## Runs -/

/-- Project `p` has no rows yet. -/
structure Db.EmptyProject (db : Db) (p : ℕ) : Prop where
  issues : ∀ r ∈ db.issues, r.projectId ≠ p
  releases : ∀ r ∈ db.releases, r.projectId ≠ p
  events : ∀ e ∈ db.events, e.projectId ≠ p

section Runs

variable {ι : Type}

abbrev IssueWorld (ι : Type) :=
  World ι Timestamp Db WriteSet DbError Request Response Outcome

/-- Every job is about to begin, each with the clock of its transaction. -/
def startJobs (pg : Postgres) (rt : Runtime) (jobs : ι → Job) (now : ι → Timestamp) (db : Db) :
    IssueWorld ι := World.start (store pg) (fun i => (jobs i).program pg rt) now db

theorem startJobs_has {pg : Postgres} {rt : Runtime} {jobs : ι → Job} {now : ι → Timestamp}
    {db : Db} {i : ι} {s : Session} (h : (startJobs pg rt jobs now db).Has i s) :
    s = (store pg).init (now i) := by
  obtain ⟨p, waiting, hp⟩ | ⟨a, ha⟩ := h
  · cases hp
    rfl
  · cases ha

theorem startJobs_sound {pg : Postgres} {rt : Runtime} {jobs : ι → Job} {now : ι → Timestamp}
    {db : Db} (hdb : db.Valid) : (lockDiscipline pg rt jobs).Sound (startJobs pg rt jobs now db) :=
  (lockDiscipline pg rt jobs).start_sound hdb fun i => (jobs i).program_spec rt (now i)

variable {pg : Postgres} {jobs : ι → Job} [DecidableEq ι] [Fintype ι] {w w' : IssueWorld ι}
  {act : Action ι}

/-- The constraints of the tables hold in every state of every run. -/
theorem committed_valid {db : Db} {now : ι → Timestamp} {acts : List (Action ι)} (hdb : db.Valid)
    (h : run (World.step (store pg)) (startJobs pg rt jobs now db) acts = some w) :
    w.committed.Valid :=
  ((lockDiscipline pg rt jobs).run_sound (startJobs_sound hdb) h).valid

theorem sampleDb_valid : sampleDb.Valid := by
  constructor <;> simp [sampleDb]

theorem sampleDb_emptyProject : sampleDb.EmptyProject 1 := by
  constructor <;> simp [sampleDb]

/-- The committed tables change only where a job commits, and there by what it left pending. -/
theorem step_committed (hw : (lockDiscipline pg rt jobs).Sound w)
    (h : w.step (store pg) act = some w') :
    (w'.committed.issues = w.committed.issues ∧ w'.committed.events = w.committed.events) ∨
    ∃ i a s waiting, act = .run i ∧ w.txns i = .running (.pure a) s waiting ∧
      JobPost pg rt (jobs i) a s ∧ s.writes.Fits w.committed ∧
      w' = w.set i (.committed a s) (s.writes.apply w.committed) := by
  obtain ⟨i, e, -, -, -, -, rfl⟩ | ⟨i, q, next, s, -, -, -, rfl⟩ |
    ⟨i, q, next, s, waiting, r, d, c, -, ht, -, he, rfl⟩ | ⟨i, a, s, waiting, hact, ht, rfl⟩ :=
    World.step_cases (store pg) h
  · exact .inl ⟨rfl, rfl⟩
  · exact .inl ⟨rfl, rfl⟩
  · rw [World.set_committed]
    obtain ⟨-, -, -, rfl⟩ | ⟨-, -, -, -, -, rfl⟩ | ⟨-, -, -, -, rfl⟩ | ⟨-, -, -, -, -, -, rfl⟩ |
      ⟨-, -, -, rfl⟩ := executes_cases (t := s.after q r d) ⟨r, d, he, rfl⟩
    all_goals exact .inl ⟨rfl, rfl⟩
  · have hv := hw.verified i
    rw [ht] at hv
    exact .inr ⟨i, a, s, waiting, hact, ht, hv, hw.fits i s waiting ⟨_, ht⟩, rfl⟩

end Runs

end Crashlens
