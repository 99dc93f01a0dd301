import Crashlens.Calendar
import Crashlens.Library.Like
import Crashlens.Library.Paging
import Crashlens.TenantDatabase
import Mathlib.Data.List.Sort

/-!
# The issue list

`list_issues` counts the issues a filter matches and reads one page of them. Every page is a query
of its own, so the database may sort anew for each. The order has no ties, since it ends on the
primary key, and that makes the pages pieces of one list.
-/

namespace Crashlens.Tenant

open Paging RowSecurity

/-! ## Parameters -/

def issueStatuses : List PyStr :=
  [py "unresolved", py "resolved", py "ignored", py "regressed"]

def statusFilters : List PyStr := issueStatuses ++ [py "all"]

def normalizeStatusFilter : Option PyStr → Except PyError PyStr
  | none => .ok (py "unresolved")
  | some value =>
    if value.isEmpty then .ok (py "unresolved")
    else if statusFilters.contains value then .ok value else .error .valueError

inductive SortKey where
  | lastSeen
  | firstSeen
  | count
deriving DecidableEq

/-- The keys of `_SORT_ORDER_BY`. -/
def SortKey.ofStr? (s : PyStr) : Option SortKey :=
  if s = py "last_seen" then some .lastSeen
  else if s = py "first_seen" then some .firstSeen
  else if s = py "count" then some .count
  else none

def normalizeSort : Option PyStr → Except PyError PyStr
  | none => .ok (py "last_seen")
  | some value =>
    if value.isEmpty then .ok (py "last_seen")
    else if (SortKey.ofStr? value).isSome then .ok value else .error .valueError

def clampPage : Option ℤ → ℤ
  | none => 1
  | some value => if value < 1 then 1 else value

def clampPerPage : Option ℤ → ℤ
  | none => 25
  | some value => if value < 1 then 25 else min value 100

/-! ## The filter -/

def statusStr : Status → PyStr
  | .unresolved => py "unresolved"
  | .resolved => py "resolved"
  | .ignored => py "ignored"
  | .regressed => py "regressed"

def levelStr : Level → PyStr
  | .fatal => py "fatal"
  | .error => py "error"
  | .warning => py "warning"
  | .info => py "info"
  | .debug => py "debug"

/-- How the locale of the database folds the case of a character. -/
structure Locale where
  fold : CodePoint → CodePoint
  ascii : ∀ c : CodePoint, c.val < 128 →
    fold c = if 65 ≤ c.val ∧ c.val ≤ 90 then CodePoint.ofNat (c.val + 32) else c

def percent : CodePoint := CodePoint.ofNat 0x25

def likeWildcards : Like.Wildcards CodePoint where
  many := percent
  one := CodePoint.ofNat 0x5F
  escape := CodePoint.ofNat 0x5C

def Locale.ilike (loc : Locale) (text pattern : PyStr) : Bool :=
  Like.like likeWildcards loc.fold text pattern = some true

/-- The text between two wildcards. -/
def titlePattern (q : PyStr) : PyStr := percent :: (q ++ [percent])

/-- What is bound to `:status`, unless every status is asked for. -/
def statusParam (statusFilter : PyStr) : Option PyStr :=
  if statusFilter = py "all" then none else some statusFilter

/-- What is bound to `:q`, unless there is nothing to search for. -/
def titleParam (q : Option PyStr) : Option PyStr :=
  (q.filter fun q => !q.isEmpty).map titlePattern

/-- The `WHERE` clause. -/
def matchesFilter (loc : Locale) (projectId : ℕ) (status title : Option PyStr) (i : Issue) : Bool :=
  i.projectId = projectId && (status.all fun s => statusStr i.status = s) &&
    title.all fun pattern => loc.ilike i.title.val pattern

/-! ## The order -/

def SortKey.key : SortKey → Issue → ℤ
  | .lastSeen, i => i.lastSeen
  | .firstSeen, i => i.firstSeen
  | .count, i => i.eventCount

/-- `ORDER BY key DESC, id DESC` -/
def SortKey.NotAfter (sort : SortKey) (a b : Issue) : Prop :=
  sort.key b < sort.key a ∨ sort.key a = sort.key b ∧ b.id ≤ a.id

/-- Later key first, and of two issues with one key the greater id. -/
def SortKey.Before (sort : SortKey) (a b : Issue) : Prop :=
  sort.key b < sort.key a ∨ sort.key a = sort.key b ∧ b.id < a.id

instance (sort : SortKey) : DecidableRel sort.NotAfter := fun _ _ =>
  inferInstanceAs (Decidable (_ ∨ _))

/-- How the database sorts the rows of one query. -/
structure Plan where
  order : SortKey → List Issue → List Issue
  perm : ∀ sort rows, (order sort rows).Perm rows
  sorted : ∀ sort rows, (order sort rows).Pairwise sort.NotAfter

/-! ## The query -/

/-- `_issue_dict` -/
structure IssueDict where
  id : PyStr
  title : PyStr
  level : PyStr
  status : PyStr
  firstSeen : PyStr
  lastSeen : PyStr
  eventCount : ℕ
  assignedTo : Option PyStr
  resolvedInRelease : Option PyStr
  regressedInRelease : Option PyStr
deriving DecidableEq

def issueDict (i : Issue) : IssueDict where
  id := uuidStr i.id
  title := i.title.val
  level := levelStr i.level
  status := statusStr i.status
  firstSeen := isoformat i.firstSeen
  lastSeen := isoformat i.lastSeen
  eventCount := i.eventCount
  assignedTo := i.assignedTo.map uuidStr
  resolvedInRelease := i.resolvedInRelease.map Subtype.val
  regressedInRelease := i.regressedInRelease.map Subtype.val

structure IssuePage where
  issues : List IssueDict
  total : ℕ
  page : ℤ
  perPage : ℤ
deriving DecidableEq

/-- `LIMIT :limit OFFSET :offset` -/
def limitOffset {α : Type} (limit offset : ℤ) (rows : List α) : Except ServiceError (List α) :=
  if limit < 0 then .error (.database "LIMIT must not be negative")
  else if offset < 0 then .error (.database "OFFSET must not be negative")
  else .ok (slice limit.toNat offset.toNat rows)

def listIssues (loc : Locale) (plan : Plan) (db : Db) (orgId projectId : ℕ)
    (statusFilter : PyStr) (q : Option PyStr) (sort : PyStr) (page perPage : ℤ) :
    Except ServiceError (Option IssuePage) :=
  match SortKey.ofStr? sort with
  | none => .error (.python .keyError)
  | some key =>
    let status := statusParam statusFilter
    let title := titleParam q
    let view := db.issueView (.tenant orgId)
    if projectId ∉ view.projects then .ok none
    else do
      let _ ← bindNullable status
      let _ ← bindNullable title
      let rows := view.issues.filter (matchesFilter loc projectId status title)
      let issues ← limitOffset perPage ((page - 1) * perPage) (plan.order key rows)
      return some ⟨issues.map issueDict, rows.length, page, perPage⟩

/-- The issues of the project that the filter matches, as the organisation sees them. -/
def matchingIssues (loc : Locale) (db : Db) (orgId projectId : ℕ) (statusFilter : PyStr)
    (q : Option PyStr) : List Issue :=
  (db.issueView (.tenant orgId)).issues.filter
    (matchesFilter loc projectId (statusParam statusFilter) (titleParam q))

section Parameters

theorem clampPage_pos (value : Option ℤ) : 1 ≤ clampPage value := by
  cases value with
  | none => exact le_rfl
  | some value =>
      simp only [clampPage]
      split_ifs <;> omega

theorem clampPerPage_bounds (value : Option ℤ) :
    1 ≤ clampPerPage value ∧ clampPerPage value ≤ 100 := by
  cases value with
  | none => decide
  | some value =>
      simp only [clampPerPage]
      split_ifs <;> omega

/-- What passes is a status, or asks for all. -/
theorem normalizeStatusFilter_ok {value : Option PyStr} {status : PyStr}
    (h : normalizeStatusFilter value = .ok status) : status ∈ statusFilters := by
  have hdefault : py "unresolved" ∈ statusFilters := by decide
  unfold normalizeStatusFilter at h
  split at h
  · cases h
    exact hdefault
  · split_ifs at h with hempty hknown
    · cases h
      exact hdefault
    · cases h
      exact List.contains_iff_mem.mp hknown

/-- A sort key that passes its check is one the query knows. -/
theorem normalizeSort_ok {value : Option PyStr} {sort : PyStr}
    (h : normalizeSort value = .ok sort) : ∃ key, SortKey.ofStr? sort = some key := by
  have hdefault : SortKey.ofStr? (py "last_seen") = some .lastSeen := by decide +kernel
  unfold normalizeSort at h
  split at h
  · cases h
    exact ⟨_, hdefault⟩
  · split_ifs at h with hempty hknown
    · cases h
      exact ⟨_, hdefault⟩
    · cases h
      exact Option.isSome_iff_exists.mp hknown

end Parameters

/-! ## Pages -/

section Pages

variable {loc : Locale} {plan : Plan} {db : Db} {orgId projectId : ℕ} {statusFilter : PyStr}
  {q : Option PyStr} {sort : PyStr} {key : SortKey} {page perPage : ℤ}

/-- What a list of issues needs besides a page. -/
structure Listable (db : Db) (orgId projectId : ℕ) (statusFilter : PyStr) (q : Option PyStr)
    (sort : PyStr) (key : SortKey) : Prop where
  sort : SortKey.ofStr? sort = some key
  project : projectId ∈ (db.issueView (.tenant orgId)).projects
  status : ∃ s, bindNullable (statusParam statusFilter) = .ok s
  title : ∃ s, bindNullable (titleParam q) = .ok s

theorem listable_of_page {result : IssuePage}
    (h : listIssues loc plan db orgId projectId statusFilter q sort page perPage =
      .ok (some result)) : ∃ key, Listable db orgId projectId statusFilter q sort key := by
  unfold listIssues at h
  split at h
  · cases h
  · next key hsort =>
      dsimp only at h
      split_ifs at h with hproject
      · cases hstatus : bindNullable (statusParam statusFilter) with
        | error e =>
            rw [hstatus] at h
            cases h
        | ok status =>
            cases htitle : bindNullable (titleParam q) with
            | error e =>
                rw [hstatus, htitle] at h
                cases h
            | ok title => exact ⟨key, hsort, hproject, ⟨status, hstatus⟩, ⟨title, htitle⟩⟩
      · cases h

theorem listIssues_eq (h : Listable db orgId projectId statusFilter q sort key) (hpage : 1 ≤ page)
    (hper : 1 ≤ perPage) :
    listIssues loc plan db orgId projectId statusFilter q sort page perPage =
      .ok (some ⟨(slice perPage.toNat ((page - 1) * perPage).toNat
          (plan.order key (matchingIssues loc db orgId projectId statusFilter q))).map issueDict,
        (matchingIssues loc db orgId projectId statusFilter q).length, page, perPage⟩) := by
  obtain ⟨status, hstatus⟩ := h.status
  obtain ⟨title, htitle⟩ := h.title
  have hoffset : ¬ (page - 1) * perPage < 0 :=
    not_lt.mpr (Int.mul_nonneg (by omega) (by omega))
  unfold listIssues
  rw [h.sort]
  dsimp only
  rw [if_neg (not_not.mpr h.project), hstatus, htitle, limitOffset, if_neg (by omega),
    if_neg hoffset]
  rfl

theorem SortKey.NotAfter.antisymm {a b : Issue} (hab : key.NotAfter a b) (hba : key.NotAfter b a) :
    key.key a = key.key b ∧ a.id = b.id := by
  unfold SortKey.NotAfter at hab hba
  omega

theorem SortKey.before_of_ne {a b : Issue} (h : key.NotAfter a b) (hne : a.id ≠ b.id) :
    key.Before a b := by
  unfold SortKey.NotAfter at h
  unfold SortKey.Before
  omega

theorem matchingIssues_ids (hkey : (db.issues.map fun i => i.id).Nodup) :
    ((matchingIssues loc db orgId projectId statusFilter q).map Issue.id).Nodup := by
  have hview : ((db.issueView (.tenant orgId)).issues.map Issue.id).Nodup := by
    rw [Db.issueView, List.map_map]
    exact hkey.sublist (List.filter_sublist.map _)
  exact hview.sublist (List.filter_sublist.map _)

/-- However the database sorts, it arrives at the same list. -/
theorem order_eq (plan plan' : Plan) {rows : List Issue} (hids : (rows.map Issue.id).Nodup) :
    plan.order key rows = plan'.order key rows := by
  have hperm := (plan.perm key rows).trans (plan'.perm key rows).symm
  refine hperm.eq_of_pairwise (fun a b ha hb hab hba => ?_) (plan.sorted key rows)
    (plan'.sorted key rows)
  exact List.inj_on_of_nodup_map hids ((plan.perm key rows).subset ha)
    ((plan'.perm key rows).subset hb) (hab.antisymm hba).2

theorem order_strict (plan : Plan) {rows : List Issue} (hids : (rows.map Issue.id).Nodup) :
    (plan.order key rows).Pairwise key.Before := by
  have hne : ((plan.order key rows).map Issue.id).Nodup :=
    ((plan.perm key rows).map Issue.id).nodup_iff.mpr hids
  exact (plan.sorted key rows).imp₂ (fun _ _ => SortKey.before_of_ne) (List.pairwise_map.mp hne)

/-- The pages a client asks for cut the sorted list in pieces, whichever way each was sorted. -/
theorem pages_eq (h : Listable db orgId projectId statusFilter q sort key)
    (hkey : (db.issues.map fun i => i.id).Nodup) (hper : 1 ≤ perPage) (plans : ℕ → Plan) (i : ℕ) :
    listIssues loc (plans i) db orgId projectId statusFilter q sort (i + 1) perPage =
      .ok (some ⟨(slice perPage.toNat (i * perPage.toNat)
          ((plans 0).order key (matchingIssues loc db orgId projectId statusFilter q))).map
            issueDict,
        (matchingIssues loc db orgId projectId statusFilter q).length, i + 1, perPage⟩) := by
  have hoffset : ((i + 1 : ℤ) - 1) * perPage = (i * perPage.toNat : ℕ) := by
    rw [Int.add_sub_cancel, Int.natCast_mul, Int.toNat_of_nonneg (by omega)]
  rw [listIssues_eq h (by omega) hper, hoffset, Int.toNat_natCast,
    order_eq (plans i) (plans 0) (matchingIssues_ids hkey)]

theorem listed_pages (loc : Locale) (h : Listable db orgId projectId statusFilter q sort key)
    (hkey : (db.issues.map fun i => i.id).Nodup) (hper : 1 ≤ perPage) (plans : ℕ → Plan) :
    ∃ pages : ℕ → IssuePage,
      (∀ i : ℕ, listIssues loc (plans i) db orgId projectId statusFilter q sort (i + 1) perPage =
        .ok (some (pages i))) ∧
      (∀ i, (pages i).total = (matchingIssues loc db orgId projectId statusFilter q).length) ∧
      ((List.range (pageCount (pages 0).total perPage.toNat)).flatMap fun i => (pages i).issues) =
        ((plans 0).order key (matchingIssues loc db orgId projectId statusFilter q)).map
          issueDict := by
  refine ⟨_, pages_eq h hkey hper plans, fun _ => rfl, ?_⟩
  dsimp only
  rw [← ((plans 0).perm key _).length_eq]
  exact flatMap_pages issueDict (by omega) _

end Pages

/-- The pages up to the last hold every matching issue once, in the order asked for. -/
theorem pages_partition_matching_issues (loc : Locale) (plans : ℕ → Plan) (db : Db)
    (hkey : (db.issues.map fun i => i.id).Nodup) (orgId projectId : ℕ) (statusFilter : PyStr)
    (q : Option PyStr) (sort : PyStr) (perPage : ℤ) (hper : 1 ≤ perPage) (first : IssuePage)
    (hfirst : listIssues loc (plans 0) db orgId projectId statusFilter q sort 1 perPage =
      .ok (some first)) :
    ∃ (key : SortKey) (sorted : List Issue) (pages : ℕ → IssuePage),
      SortKey.ofStr? sort = some key ∧
      sorted.Perm (matchingIssues loc db orgId projectId statusFilter q) ∧
      (sorted.map Issue.id).Nodup ∧ sorted.Pairwise key.Before ∧
      first.total = (matchingIssues loc db orgId projectId statusFilter q).length ∧
      (∀ i : ℕ, listIssues loc (plans i) db orgId projectId statusFilter q sort (i + 1) perPage =
        .ok (some (pages i))) ∧
      ((List.range (pageCount first.total perPage.toNat)).flatMap fun i => (pages i).issues) =
        sorted.map issueDict := by
  obtain ⟨key, h⟩ := listable_of_page hfirst
  let matching := matchingIssues loc db orgId projectId statusFilter q
  have hids : (matching.map Issue.id).Nodup := matchingIssues_ids hkey
  have hperm : ((plans 0).order key matching).Perm matching := (plans 0).perm key matching
  obtain ⟨pages, hpages, htotal, hlisted⟩ := listed_pages loc h hkey hper plans
  have hfirst' : pages 0 = first := by
    have hzero := hpages 0
    rw [Int.natCast_zero, Int.zero_add, hfirst] at hzero
    cases hzero
    rfl
  exact ⟨key, (plans 0).order key matching, pages, h.sort, hperm,
    (hperm.map Issue.id).nodup_iff.mpr hids, order_strict (plans 0) hids, hfirst' ▸ htotal 0,
    hpages, hfirst' ▸ hlisted⟩

def insertionPlan : Plan where
  order sort rows := rows.insertionSort sort.NotAfter
  perm sort rows := List.perm_insertionSort _ rows
  sorted sort rows := by
    have htotal : Std.Total sort.NotAfter := ⟨fun a b => by unfold SortKey.NotAfter; omega⟩
    have htrans : IsTrans Issue sort.NotAfter :=
      ⟨fun a b c hab hbc => by unfold SortKey.NotAfter at *; omega⟩
    exact List.pairwise_insertionSort _ rows

def asciiLocale : Locale where
  fold c := if 65 ≤ c.val ∧ c.val ≤ 90 then CodePoint.ofNat (c.val + 32) else c
  ascii _ _ := rfl

def issueTitled (id : ℕ) (title : Text) : IssueRow where
  id := id
  projectId := 3
  fingerprint := title
  title := title
  level := .error
  status := .unresolved
  firstSeen := 0
  lastSeen := 0
  eventCount := 1
  assignedTo := none
  resolvedInRelease := none
  regressedInRelease := none
  orgId := 1

/-- A project of organisation 1, with these issues. -/
def projectWith (issues : List IssueRow) : Db where
  orgs := [1]
  users := []
  memberships := []
  invites := []
  projects := [⟨3, 1, ⟨py "Shop", rfl⟩, ⟨py "shop-x", rfl⟩, none, .finite false 1, 0⟩]
  dsnKeys := []
  issues := issues
  releases := []
  comments := []
  channels := []
  auditLog := []

def twoIssues : Db := projectWith [issueTitled 5 ⟨py "a", rfl⟩, issueTitled 6 ⟨py "b", rfl⟩]

theorem twoIssues_listable :
    Listable twoIssues 1 3 (py "all") none (py "last_seen") .lastSeen where
  sort := by decide +kernel
  project := by decide +kernel
  status := ⟨none, rfl⟩
  title := ⟨none, rfl⟩

theorem twoIssues_partition : ∃ (key : SortKey) (sorted : List Issue) (pages : ℕ → IssuePage),
    SortKey.ofStr? (py "last_seen") = some key ∧
    sorted.Perm (matchingIssues asciiLocale twoIssues 1 3 (py "all") none) ∧
    (sorted.map Issue.id).Nodup ∧ sorted.Pairwise key.Before ∧
    2 = (matchingIssues asciiLocale twoIssues 1 3 (py "all") none).length ∧
    (∀ i : ℕ, listIssues asciiLocale insertionPlan twoIssues 1 3 (py "all") none (py "last_seen")
      (i + 1) 1 = .ok (some (pages i))) ∧
    ((List.range (pageCount 2 1)).flatMap fun i => (pages i).issues) = sorted.map issueDict :=
  pages_partition_matching_issues asciiLocale (fun _ => insertionPlan) twoIssues (by decide) 1 3
    (py "all") none (py "last_seen") 1 le_rfl _ (listIssues_eq twoIssues_listable le_rfl le_rfl)

end Crashlens.Tenant
