import Crashlens.Redelivery
import Mathlib.Order.Bounds.Basic

/-!
# Which columns of an issue depend on the order of arrival

`last_seen` is a maximum and `event_count` a count, so any two orders of the same events agree on
them. `first_seen` is set on insertion only: it is the `received_at` of the event handled first.
-/

namespace Crashlens

open Transactional

section Order

variable {pg : Postgres} {rt : Runtime} {db : Db} {p : ℕ} {f : Text}

/-- The call carries a new event of project `p` and fingerprint `f` that can be stored. -/
def EventCall.Groups (pg : Postgres) (rt : Runtime) (p : ℕ) (f : Text) (db : Db)
    (call : EventCall) : Prop :=
  ∃ b, call.bound pg rt = some b ∧ b.projectId = p ∧ b.fingerprint = f ∧ p ∈ db.projects ∧
    utcDay call.seenAt ∈ db.partitions ∧ db.rowsOf p b.eventId = 0

instance (call : EventCall) : Decidable (call.Groups pg rt p f db) :=
  decidable_of_iff ((call.bound pg rt).any (fun b => b.projectId = p ∧ b.fingerprint = f ∧
    p ∈ db.projects ∧ utcDay call.seenAt ∈ db.partitions ∧ db.rowsOf p b.eventId = 0) = true) (by
      rw [Option.any_eq_true]
      exact exists_congr fun b => and_congr_right fun _ => decide_eq_true_iff)

/-- The issue of the fingerprint after one of its events. -/
theorem deliver_groups {d : Delivery} (h : d.1.Groups pg rt p f db) :
    ∃ r, findIssue (deliver pg rt db d) p f = some r ∧
      r.firstSeen = ((findIssue db p f).map Issue.firstSeen).getD d.1.seenAt ∧
      r.lastSeen = ((findIssue db p f).map Issue.lastSeen).elim d.1.seenAt (max · d.1.seenAt) ∧
      r.eventCount = ((findIssue db p f).map Issue.eventCount).getD 0 + 1 := by
  obtain ⟨b, hb, rfl, rfl, hproject, hday, hnew⟩ := h
  have hseen := (bound_call hb).2
  have hstore : deliver pg rt db d = b.store d.2 db :=
    congrArg Prod.snd (serial_stored hb (fun _ => hproject) (hseen ▸ hday) hnew)
  rw [hstore, findIssue_store, ← hseen]
  cases findIssue db b.projectId b.fingerprint with
  | none => exact ⟨_, rfl, rfl, rfl, rfl⟩
  | some old => exact ⟨_, rfl, rfl, rfl, rfl⟩

/-- An event leaves the events with other ids as new as they were. -/
theorem groups_deliver {d d' : Delivery} (h : d.1.Groups pg rt p f db)
    (h' : d'.1.Groups pg rt p f db) (hne : d.1.eventKey pg ≠ d'.1.eventKey pg) :
    d'.1.Groups pg rt p f (deliver pg rt db d) := by
  obtain ⟨b, hb, hp, -, hproject, hday, hnew⟩ := h
  obtain ⟨b', hb', hp', hf', -, hday', hnew'⟩ := h'
  have hstore : deliver pg rt db d = b.store d.2 db :=
    congrArg Prod.snd (serial_stored hb (fun _ => hp ▸ hproject) ((bound_call hb).2 ▸ hday)
      (hp ▸ hnew))
  rw [bound_eventKey hb, bound_eventKey hb', hp, hp'] at hne
  have hid : ¬ (p = b.projectId ∧ b'.eventId = b.eventId) := fun h => hne (by rw [h.2])
  refine ⟨b', hb', hp', hf', ?_, ?_, ?_⟩
  · rw [hstore, store_projects]
    exact hproject
  · rw [hstore, store_partitions]
    exact hday'
  · rw [hstore, rowsOf_store, if_neg hid, hnew']

theorem replay_existing {ds : List Delivery} {r : Issue} (hr : findIssue db p f = some r)
    (hgroups : ∀ d ∈ ds, d.1.Groups pg rt p f db)
    (hids : (ds.map fun d => d.1.eventKey pg).Nodup) :
    ∃ r', findIssue (replay (deliver pg rt) db ds) p f = some r' ∧ r'.firstSeen = r.firstSeen ∧
      IsGreatest {t | t = r.lastSeen ∨ ∃ d ∈ ds, d.1.seenAt = t} r'.lastSeen ∧
      r'.eventCount = r.eventCount + ds.length := by
  induction ds generalizing db r with
  | nil =>
      refine ⟨r, hr, rfl, ⟨.inl rfl, ?_⟩, rfl⟩
      rintro t (rfl | ⟨d, hd, -⟩)
      · exact le_rfl
      · cases hd
  | cons d ds ih =>
      have hd := hgroups d (List.mem_cons_self ..)
      rw [List.map_cons, List.nodup_cons] at hids
      obtain ⟨r₁, hr₁, hfirst, hlast, hcount⟩ := deliver_groups hd
      rw [hr] at hfirst hlast hcount
      have hrest : ∀ d' ∈ ds, d'.1.Groups pg rt p f (deliver pg rt db d) := by
        intro d' hd'
        refine groups_deliver hd (hgroups d' (List.mem_cons_of_mem d hd')) fun heq => ?_
        exact hids.1 (heq ▸ List.mem_map_of_mem hd')
      obtain ⟨r', hr', hfirst', ⟨hmem, hbound⟩, hcount'⟩ := ih hr₁ hrest hids.2
      have hlast₁ : r₁.lastSeen = max r.lastSeen d.1.seenAt := hlast
      refine ⟨r', hr', hfirst'.trans hfirst, ⟨?_, ?_⟩, ?_⟩
      · rcases hmem with hmem | ⟨d', hd', hmem⟩
        · rw [hmem, hlast₁]
          rcases le_total r.lastSeen d.1.seenAt with hle | hle
          · exact .inr ⟨d, List.mem_cons_self .., (max_eq_right hle).symm⟩
          · exact .inl (max_eq_left hle)
        · exact .inr ⟨d', List.mem_cons_of_mem d hd', hmem⟩
      · have hr₁le : r₁.lastSeen ≤ r'.lastSeen := hbound (.inl rfl)
        rintro t (rfl | ⟨d', hd', rfl⟩)
        · exact (le_max_left _ _).trans (hlast₁ ▸ hr₁le)
        · rcases List.mem_cons.mp hd' with rfl | hd'
          · exact (le_max_right _ _).trans (hlast₁ ▸ hr₁le)
          · exact hbound (.inr ⟨d', hd', rfl⟩)
      · have hcount₁ : r₁.eventCount = r.eventCount + 1 := hcount
        rw [hcount', hcount₁, List.length_cons]
        omega

/-- The issue a group of events builds up from nothing. -/
theorem replay_new {first : Delivery} {rest : List Delivery} (hnone : findIssue db p f = none)
    (hgroups : ∀ d ∈ first :: rest, d.1.Groups pg rt p f db)
    (hids : ((first :: rest).map fun d => d.1.eventKey pg).Nodup) :
    ∃ r, findIssue (replay (deliver pg rt) db (first :: rest)) p f = some r ∧
      r.firstSeen = first.1.seenAt ∧
      IsGreatest {t | ∃ d ∈ first :: rest, d.1.seenAt = t} r.lastSeen ∧
      r.eventCount = (first :: rest).length := by
  have hfirst := hgroups first (List.mem_cons_self ..)
  rw [List.map_cons, List.nodup_cons] at hids
  obtain ⟨r₁, hr₁, hseen, hlast, hcount⟩ := deliver_groups hfirst
  rw [hnone] at hseen hlast hcount
  have hrest : ∀ d ∈ rest, d.1.Groups pg rt p f (deliver pg rt db first) := by
    intro d hd
    refine groups_deliver hfirst (hgroups d (List.mem_cons_of_mem first hd)) fun heq => ?_
    exact hids.1 (heq ▸ List.mem_map_of_mem hd)
  obtain ⟨r, hr, hfirst', hmax, hcount'⟩ := replay_existing hr₁ hrest hids.2
  have hset : {t | t = r₁.lastSeen ∨ ∃ d ∈ rest, d.1.seenAt = t} =
      {t | ∃ d ∈ first :: rest, d.1.seenAt = t} := by
    ext t
    have hlast₁ : r₁.lastSeen = first.1.seenAt := hlast
    simp [hlast₁, eq_comm]
  refine ⟨r, hr, hfirst'.trans hseen, hset ▸ hmax, ?_⟩
  have hcount₁ : r₁.eventCount = 1 := hcount
  rw [hcount', hcount₁, List.length_cons]
  omega

theorem arrival_order {first first' : Delivery} {rest rest' : List Delivery}
    (hnone : findIssue db p f = none) (hgroups : ∀ d ∈ first :: rest, d.1.Groups pg rt p f db)
    (hids : ((first :: rest).map fun d => d.1.eventKey pg).Nodup)
    (hperm : ((first' :: rest').map Prod.fst).Perm ((first :: rest).map Prod.fst)) :
    ∃ r r', findIssue (replay (deliver pg rt) db (first :: rest)) p f = some r ∧
      findIssue (replay (deliver pg rt) db (first' :: rest')) p f = some r' ∧
      r'.lastSeen = r.lastSeen ∧ IsGreatest {t | ∃ d ∈ first :: rest, d.1.seenAt = t} r.lastSeen ∧
      r'.eventCount = r.eventCount ∧ r.eventCount = (first :: rest).length ∧
      r.firstSeen = first.1.seenAt ∧ r'.firstSeen = first'.1.seenAt := by
  have hcall {d : Delivery} (hd : d ∈ first' :: rest') : ∃ e ∈ first :: rest, e.1 = d.1 :=
    List.mem_map.mp (hperm.subset (List.mem_map_of_mem hd))
  have hgroups' : ∀ d ∈ first' :: rest', d.1.Groups pg rt p f db := by
    intro d hd
    obtain ⟨e, he, heq⟩ := hcall hd
    exact heq ▸ hgroups e he
  have hids' : ((first' :: rest').map fun d => d.1.eventKey pg).Nodup := by
    have hkeys := hperm.map fun call => call.eventKey pg
    rw [List.map_map, List.map_map] at hkeys
    exact hkeys.nodup_iff.mpr hids
  have hset : {t | ∃ d ∈ first' :: rest', d.1.seenAt = t} =
      {t | ∃ d ∈ first :: rest, d.1.seenAt = t} := by
    ext t
    constructor
    · rintro ⟨d, hd, rfl⟩
      obtain ⟨e, he, heq⟩ := hcall hd
      exact ⟨e, he, heq ▸ rfl⟩
    · rintro ⟨d, hd, rfl⟩
      obtain ⟨e, he, heq⟩ := List.mem_map.mp (hperm.symm.subset (List.mem_map_of_mem hd))
      exact ⟨e, he, heq ▸ rfl⟩
  obtain ⟨r, hr, hfirst, hmax, hcount⟩ := replay_new hnone hgroups hids
  obtain ⟨r', hr', hfirst', hmax', hcount'⟩ := replay_new hnone hgroups' hids'
  rw [hset] at hmax'
  have hlength : (first' :: rest').length = (first :: rest).length := by
    simpa using hperm.length_eq
  exact ⟨r, r', hr, hr', hmax'.unique hmax, hmax, by rw [hcount', hcount, hlength], hcount, hfirst,
    hfirst'⟩

/-- Two events of one issue in both orders. -/
theorem arrival_order_two_events :
    let early : Delivery := (sampleCall none (toHex 32 1) 5, 2)
    let late : Delivery := (sampleCall none (toHex 32 2) 10, 1)
    let issueAfter (ds : List Delivery) :=
      findIssue (replay (deliver samplePostgres sampleRuntime) sampleDb ds) 1 sampleFingerprint
    ∃ r r', issueAfter [early, late] = some r ∧ issueAfter [late, early] = some r' ∧
      r'.lastSeen = r.lastSeen ∧ r'.eventCount = r.eventCount := by
  intro early late issueAfter
  have hgroups : ∀ d ∈ [early, late],
      d.1.Groups samplePostgres sampleRuntime 1 sampleFingerprint sampleDb := by decide +kernel
  have hids : ([early, late].map fun d => d.1.eventKey samplePostgres).Nodup := by decide +kernel
  have hperm : ([late, early].map Prod.fst).Perm ([early, late].map Prod.fst) :=
    List.Perm.swap early.1 late.1 []
  obtain ⟨r, r', hr, hr', hlast, -, hcount, -⟩ := arrival_order rfl hgroups hids hperm
  exact ⟨r, r', hr, hr', hlast, hcount⟩

/-- The later of two events handled first makes `first_seen` the larger `received_at`. -/
theorem first_seen_depends_on_order :
    let early : Delivery := (sampleCall none (toHex 32 1) 5, 2)
    let late : Delivery := (sampleCall none (toHex 32 2) 10, 1)
    (replay (deliver samplePostgres sampleRuntime) sampleDb [early, late]).issues.map
        (fun r => (r.firstSeen, r.lastSeen, r.eventCount)) = [(5, 10, 2)] ∧
      (replay (deliver samplePostgres sampleRuntime) sampleDb [late, early]).issues.map
        (fun r => (r.firstSeen, r.lastSeen, r.eventCount)) = [(10, 10, 2)] := by
  decide +kernel

end Order

end Crashlens
