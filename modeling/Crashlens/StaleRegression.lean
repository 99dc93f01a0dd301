import Crashlens.RegressionAlerts

/-!
# Regression decisions that are stale when they take effect

An event decides on the fix release it reads before its upsert, and the upsert applies the decision
to the row as it is by then. Releases are only ever added, so the times the transaction has read
stay true (`releaseDiscipline`); what can change in between is the fix release of the row. The
upsert flips an issue against the row's own fix release exactly when that release is no older than
the event's and the transaction had not read one that is.
-/

namespace Crashlens

open Transactional

section Definitions

/-- `decide_regression` against the fix release stored on the row the upsert meets. -/
def RowUpsert.decision (u : RowUpsert) : Bool :=
  decideRegression u.row.resolvedInRelease u.params.eventRelease
    (u.params.eventRelease.bind (releaseCreatedAt u.latest u.params.projectId))
    (u.row.resolvedInRelease.bind (releaseCreatedAt u.latest u.params.projectId))

/-- When the upsert takes a resolved issue to regressed, the decision holds for the row it meets. -/
def RowUpsert.FlipJustified (u : RowUpsert) : Prop :=
  u.row.status = .resolved → (u.params.onConflict u.row).status = .regressed → u.decision = true

instance (u : RowUpsert) : Decidable u.FlipJustified :=
  inferInstanceAs (Decidable (u.row.status = .resolved →
    (u.params.onConflict u.row).status = .regressed → u.decision = true))

/-- Where the row's fix release is no older than the event's release, the fix release the
transaction has read was no older either. -/
def RowUpsert.ReadUpToDate (u : RowUpsert) : Prop :=
  ∀ release fix seen fixSeen, u.row.status = .resolved →
    u.params.eventRelease = some release →
    u.row.resolvedInRelease = some fix → fix.nonempty = true →
    releaseCreatedAt u.latest u.params.projectId release = some seen →
    releaseCreatedAt u.latest u.params.projectId fix = some fixSeen → seen ≤ fixSeen →
    ∃ prior read readSeen, preRead u.session = some prior ∧ fixRelease prior = some read ∧
      read.nonempty = true ∧
      ⟨.releaseCreatedAt u.params.projectId read, some readSeen⟩ ∈ u.session.log ∧ seen ≤ readSeen

end Definitions

/-- The release times in a session's log are those of the rows it can see. -/
structure ReleasesRead (s : Session) (db : Db) : Prop where
  recorded : ∀ p v, ⟨.upsertRelease p v, ()⟩ ∈ s.log →
    ∃ t, ⟨p, v, t⟩ ∈ (s.writes.apply db).releases
  read : ∀ p v t, ⟨.releaseCreatedAt p v, some t⟩ ∈ s.log →
    ⟨p, v, t⟩ ∈ (s.writes.apply db).releases
  known : ∀ p v, ⟨.upsertRelease p v, ()⟩ ∈ s.log → ⟨.releaseCreatedAt p v, none⟩ ∉ s.log

theorem ReleasesRead.mono {s : Session} {db db' : Db} (h : ReleasesRead s db)
    (hsub : ∀ r ∈ (s.writes.apply db).releases, r ∈ (s.writes.apply db').releases) :
    ReleasesRead s db' :=
  ⟨fun p v hm => (h.recorded p v hm).imp fun _ ht => hsub _ ht,
    fun p v t hm => hsub _ (h.read p v t hm), h.known⟩

section Statement

variable {pg : Postgres} {s t : Session} {snap c c' : Db} {q : Request}

/-- A transaction never loses a release row from its view. -/
theorem executes_releases (h : (store pg).Executes s snap c q t c') (hpre : Pre q s) :
    ∀ r ∈ (s.writes.apply c).releases, r ∈ (t.writes.apply c').releases := by
  intro r hr
  obtain ⟨-, -, hrel, rfl⟩ | ⟨p, v, rfl, -, hw, rfl⟩ | ⟨p, -, -, hw, rfl⟩ |
    ⟨old, iw, -, -, -, hw, rfl⟩ | ⟨e, -, hw, rfl⟩ := executes_cases h
  · rwa [apply_releases, hrel]
  · rw [apply_releases, hpre.2.1, Option.toList_none, List.append_nil] at hr
    exact List.mem_append_left _ hr
  · rwa [hw]
  · rwa [hw]
  · rwa [hw]

theorem executes_upsertRelease {p : ℕ} {v : Text}
    (h : (store pg).Executes s snap c (.upsertRelease p v) t c') :
    ∃ t', ⟨p, v, t'⟩ ∈ (t.writes.apply c').releases := by
  obtain ⟨r, d, he, rfl⟩ := h
  simp only [store, exec] at he
  split_ifs at he with hfit hknown
  · cases he
    obtain ⟨r, hr, hkey⟩ := List.any_eq_true.mp hknown
    have hkey : r.key = (p, v) := by simpa using hkey
    obtain ⟨rfl, rfl⟩ := Prod.mk.inj hkey
    exact ⟨r.createdAt, hr⟩
  · cases he
    exact ⟨s.now, by simp⟩

theorem executes_releasesRead (h : (store pg).Executes s snap c q t c') (hpre : Pre q s)
    (hc : c.Valid) (hfit : s.writes.Fits c) (hs : ReleasesRead s c) : ReleasesRead t c' := by
  have hsub := executes_releases h hpre
  have hexec := h
  obtain ⟨r, d, he, rfl⟩ := h
  have hlog {x : (q : Request) × Response q} (hx : x ∈ (s.after q r d).log) :
      x ∈ s.log ∨ x = ⟨q, r⟩ := by
    rwa [Session.after_log, List.mem_append, List.mem_singleton] at hx
  refine ⟨fun p v hmem => ?_, fun p v t hmem => ?_, fun p v hmem hnone => ?_⟩
  · obtain hmem | hmem := hlog hmem
    · exact (hs.recorded p v hmem).imp fun _ ht => hsub _ ht
    · cases hmem
      exact executes_upsertRelease hexec
  · obtain hmem | hmem := hlog hmem
    · exact hsub _ (hs.read p v t hmem)
    · cases hmem
      have hread : releaseCreatedAt (s.writes.apply c) p v = some t :=
        congrArg Prod.fst (Except.ok.inj he)
      exact hsub _ (releaseCreatedAt_some hread)
  · obtain hbefore | hnow := hlog hmem
    · obtain hnone' | hnone' := hlog hnone
      · exact hs.known p v hbefore hnone'
      · cases hnone'
        have hread : releaseCreatedAt (s.writes.apply c) p v = none :=
          congrArg Prod.fst (Except.ok.inj he)
        obtain ⟨t, ht⟩ := hs.recorded p v hbefore
        rw [releaseCreatedAt_of_mem (hfit.valid_apply hc) ht] at hread
        cases hread
    · cases hnow
      obtain hnone' | hnone' := hlog hnone
      · exact hpre.2.2 none hnone'
      · cases hnone'

/-- The locks of the issue tracker, and release times that stay as they were read. -/
def releaseDiscipline {ι : Type} (pg : Postgres) (rt : Runtime) (jobs : ι → Job) :
    Discipline (store pg) Pre fun i => JobPost pg rt (jobs i) where
  Valid := Db.Valid
  Fits s db := s.writes.Fits db ∧ ReleasesRead s db
  Apart := WriteSet.Apart
  Seen _ _ := True
  apart_symm h := h.symm
  init_fits _ _ := ⟨fits_empty _, fun _ _ h => (by cases h), fun _ _ _ h => (by cases h),
    fun _ _ h => (by cases h)⟩
  init_apart d := (lockDiscipline pg rt jobs).init_apart d
  seen_refl _ := trivial
  exec_fits h hpre hc _ hs :=
    ⟨(executes_fits h hpre hc hs.1).1, (executes_fits h hpre hc hs.1).2,
      executes_releasesRead h hpre hc hs.1 hs.2⟩
  exec_stable h hpre hc _ hfree hw hapart :=
    have hstable := executes_stable h hpre hc hfree hw.1 hapart
    ⟨⟨hstable.1, hw.2.mono (by
      obtain ⟨-, -, -, rfl⟩ | ⟨-, -, -, -, -, rfl⟩ | ⟨-, -, -, -, rfl⟩ | ⟨-, -, -, -, -, -, rfl⟩ |
        ⟨-, -, -, rfl⟩ := executes_cases h
      all_goals exact fun r hr => hr)⟩, hstable.2⟩
  exec_seen _ _ _ := trivial
  commit_valid _ hc hs := hs.1.valid_apply hc
  commit_stable hc hs hs' hapart :=
    ⟨hs.1.stable hc hs'.1 hapart, hs'.2.mono fun r hr => by
      rw [apply_releases, List.mem_append] at hr
      exact List.mem_append.mpr (hr.imp_left fun h => List.mem_append_left _ h)⟩
  commit_seen _ _ _ := trivial

end Statement

section Upserts

variable {ι : Type} [DecidableEq ι] [Fintype ι] {pg : Postgres} {w : IssueWorld ι}
  {act : Action ι}

theorem rowUpsert_some {u : RowUpsert} (h : u ∈ rowUpsert pg w act) :
    ∃ i next waiting, w.txns i = .running (.call (.upsertIssue u.params) next) u.session waiting ∧
      u.latest = u.session.writes.apply w.committed := by
  unfold rowUpsert at h
  split at h
  · next i =>
      split at h
      · next p next s waiting ht =>
          split_ifs at h with hb
          · cases h
          · obtain ⟨row, -, rfl⟩ := Option.map_eq_some_iff.mp h
            exact ⟨i, next, waiting, ht, rfl⟩
      · cases h
  · cases h

/-- The decision a transaction made is still what its reads say when it takes effect. -/
theorem flipJustified_iff {u : RowUpsert} {db : Db} (hdb : db.Valid)
    (hlatest : u.latest = u.session.writes.apply db) (hfit : u.session.writes.Fits db)
    (hreads : ReleasesRead u.session db) (hpre : Pre (.upsertIssue u.params) u.session) :
    u.FlipJustified ↔ u.ReadUpToDate := by
  obtain ⟨-, prior, seen, fixSeen, hd⟩ := hpre
  have hview : u.latest.Valid := hlatest ▸ hfit.valid_apply hdb
  have hread {p : ℕ} {v : Text} {t : Timestamp}
      (h : ⟨.releaseCreatedAt p v, some t⟩ ∈ u.session.log) :
      releaseCreatedAt u.latest p v = some t :=
    releaseCreatedAt_of_mem hview (hlatest ▸ hreads.read p v t h)
  -- the time read for a release this transaction has recorded
  have hown {v : Text} {t : Option Timestamp} (hv : u.params.eventRelease = some v)
      (h : ⟨.releaseCreatedAt u.params.projectId v, t⟩ ∈ u.session.log) :
      t = releaseCreatedAt u.latest u.params.projectId v := by
    cases t with
    | none => exact absurd h (hreads.known _ v (hd.recorded v hv).2)
    | some t => exact (hread h).symm
  constructor
  · intro hjust release fix t tf hres hrelease hfix hne ht htf hle
    by_contra hstale
    have hseen : seen = some t := (hown hrelease (hd.eventRead release hrelease)).trans ht
    have hshould : u.params.shouldRegress = true := by
      rw [hd.decided]
      by_contra hno
      obtain ⟨f, r, t', tf', hf, hfne, hr, -, rfl, rfl, hle'⟩ :=
        (decideRegression_iff ..).mp (Bool.eq_false_iff.mpr hno)
      cases hseen
      exact hstale ⟨prior, f, tf', hd.priorRead, hf, hfne, hd.fixRead f hf hfne, hle'⟩
    have hflip : (u.params.onConflict u.row).status = .regressed := if_pos ⟨hres, hshould⟩
    have hdec := hjust hres hflip
    have hno : u.decision = false := by
      refine (decideRegression_iff ..).mpr ⟨fix, release, t, tf, hfix, hne, hrelease,
        (hd.recorded release hrelease).1, ?_, ?_, hle⟩
      · rw [hrelease, Option.bind_some, ht]
      · rw [hfix, Option.bind_some, htf]
    rw [hno] at hdec
    cases hdec
  · intro hfresh hres hflip
    by_contra hno
    obtain ⟨fix, release, t, tf, hfix, hne, hrelease, -, ht, htf, hle⟩ :=
      (decideRegression_iff ..).mp (Bool.eq_false_iff.mpr hno)
    rw [hrelease, Option.bind_some] at ht
    rw [hfix, Option.bind_some] at htf
    obtain ⟨prior', f, tf', hprior, hf, hfne, hlog, hle'⟩ :=
      hfresh release fix t tf hres hrelease hfix hne ht htf hle
    obtain rfl : prior = prior' := Option.some.inj (hd.priorRead.symm.trans hprior)
    have hfixSeen : fixSeen = some tf' := by
      obtain ⟨hv, -⟩ | ⟨-, heq⟩ := hd.reads _ _ _ hlog
      · rw [hown hv (hd.fixRead f hf hfne), hread hlog]
      · exact heq.symm
    have hseen : seen = some t := (hown hrelease (hd.eventRead release hrelease)).trans ht
    have hshould : u.params.shouldRegress = false := by
      rw [hd.decided]
      exact (decideRegression_iff ..).mpr ⟨f, release, t, tf', hf, hfne, hrelease,
        (hd.recorded release hrelease).1, hseen, hfixSeen, hle'⟩
    have hkeep : (u.params.onConflict u.row).status = u.row.status :=
      if_neg fun hc => by rw [hshould] at hc; cases hc.2
    rw [hkeep, hres] at hflip
    cases hflip

end Upserts

section Runs

variable {ι : Type} [DecidableEq ι] [Fintype ι] {pg : Postgres} {rt : Runtime} {jobs : ι → Job}
  {now : ι → Timestamp} {db : Db}

theorem no_stale_flip_iff (hdb : db.Valid) (acts : List (Action ι)) :
    Along (World.step (store pg)) (fun w act => ∀ u ∈ rowUpsert pg w act, u.FlipJustified)
        (startJobs pg rt jobs now db) acts ↔
      Along (World.step (store pg)) (fun w act => ∀ u ∈ rowUpsert pg w act, u.ReadUpToDate)
        (startJobs pg rt jobs now db) acts := by
  have hstart : (releaseDiscipline pg rt jobs).Sound (startJobs pg rt jobs now db) :=
    (releaseDiscipline pg rt jobs).start_sound hdb fun i => (jobs i).program_spec rt (now i)
  refine along_congr (fun w act w' hw h => (releaseDiscipline pg rt jobs).step_sound hw h)
    (fun w act hw => forall_congr' fun u => forall_congr' fun hu => ?_) hstart acts
  obtain ⟨i, next, waiting, ht, hlatest⟩ := rowUpsert_some hu
  have hv := hw.verified i
  rw [ht] at hv
  obtain ⟨hfit, hreads⟩ := hw.fits i u.session waiting ⟨_, ht⟩
  exact flipJustified_iff hw.valid hlatest hfit hreads hv.1

/-- An event of release 1.0, a resolve that records it, and a straggler of release 1.0, in turn. -/
theorem no_stale_flip_in_turn :
    let jobs : Fin 3 → Job := fun i =>
      if i = 2 then .status 1 1 .resolve none
      else .event (sampleCall (some "1.0") (toHex 32 i.val) (10 * i.val))
    let start := startJobs samplePostgres sampleRuntime jobs (fun i => i.val) sampleDb
    let acts := List.replicate 7 (.run 0) ++ List.replicate 4 (.run 2) ++ List.replicate 8 (.run 1)
    Along (World.step (store samplePostgres))
      (fun w act => ∀ u ∈ rowUpsert samplePostgres w act, u.ReadUpToDate) start acts := by
  intro jobs start acts
  exact (no_stale_flip_iff sampleDb_valid acts).mp (by decide +kernel)

/-- The straggler reads the issue before the resolve and upserts it after: it regresses the issue
with the very release that is recorded as the fix. -/
theorem straggler_regresses_issue :
    let jobs : Fin 3 → Job := fun i =>
      if i = 2 then .status 1 1 .resolve none
      else .event (sampleCall (some "1.0") (toHex 32 i.val) (10 * i.val))
    let start := startJobs samplePostgres sampleRuntime jobs (fun i => i.val) sampleDb
    let acts := List.replicate 7 (.run 0) ++ List.replicate 4 (.run 1) ++
      List.replicate 4 (.run 2) ++ [.run 1]
    (run (World.step (store samplePostgres)) start acts).isSome = true ∧
    ¬ Along (World.step (store samplePostgres))
      (fun w act => ∀ u ∈ rowUpsert samplePostgres w act, u.FlipJustified) start acts := by
  decide +kernel

end Runs

end Crashlens
