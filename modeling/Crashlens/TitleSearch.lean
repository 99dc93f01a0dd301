import Crashlens.IssueList

/-!
# Searching titles

`list_issues` puts the search text between two `%` of an `ILIKE` pattern as it is. It finds the
titles that contain the text, for a text without the characters that have a meaning there.
-/

namespace Crashlens.Tenant

open Paging RowSecurity

section Search

variable (loc : Locale)

/-- The issues of the project with this status whose title contains the text, whatever the case. -/
def issuesContaining (db : Db) (orgId projectId : ℕ) (statusFilter q : PyStr) : List Issue :=
  (db.issueView (.tenant orgId)).issues.filter fun i =>
    i.projectId = projectId && (statusParam statusFilter).all (fun s => statusStr i.status = s) &&
      Like.Contains loc.fold i.title.val q

/-- All pages of the list with a search text are the issues that contain it. -/
def FindsTitles (q : PyStr) : Prop :=
  ∀ (plans : ℕ → Plan) (db : Db), (db.issues.map fun i => i.id).Nodup →
    ∀ (orgId projectId : ℕ), projectId ∈ (db.issueView (.tenant orgId)).projects →
    ∀ statusFilter ∈ statusFilters, ∀ sort, (SortKey.ofStr? sort).isSome →
    ∀ perPage : ℤ, 1 ≤ perPage → ∃ pages : ℕ → IssuePage,
      (∀ i : ℕ, listIssues loc (plans i) db orgId projectId statusFilter (some q) sort (i + 1)
        perPage = .ok (some (pages i))) ∧
      ((List.range (pageCount (pages 0).total perPage.toNat)).flatMap fun i =>
        (pages i).issues).Perm
          ((issuesContaining loc db orgId projectId statusFilter q).map issueDict)

/-- Nothing the pattern reads in its own way, and nothing the driver refuses. -/
def PlainText (q : PyStr) : Prop := likeWildcards.Plain q ∧ q.storable = true

instance (q : PyStr) : Decidable (PlainText q) := inferInstanceAs (Decidable (_ ∧ _))

variable {loc} {q : PyStr}

theorem titleParam_nil : titleParam (some []) = none := rfl

theorem titleParam_of_ne (h : q ≠ []) : titleParam (some q) = some (titlePattern q) := by
  simp [titleParam, h]

theorem titlePattern_storable (q : PyStr) : (titlePattern q).storable = q.storable := by
  have hpercent : percent.storable = true := by decide
  simp only [titlePattern, PyStr.storable, List.all_cons, List.all_append, List.all_nil, hpercent,
    Bool.true_and, Bool.and_true]

theorem bindNullable_ok_iff (s : Option PyStr) :
    (∃ t, bindNullable s = .ok t) ↔ ∀ text ∈ s, text.storable = true := by
  cases s with
  | none => simp [bindNullable]
  | some text =>
      by_cases h : text.storable = true
      · simp [bindNullable, bindText, Text.ofPyStr?, h, Except.map]
      · simp [bindNullable, bindText, Text.ofPyStr?, h, Except.map]

theorem bind_titleParam_iff : (∃ t, bindNullable (titleParam (some q)) = .ok t) ↔
    q.storable = true := by
  rw [bindNullable_ok_iff]
  by_cases hempty : q = []
  · subst hempty
    rw [titleParam_nil]
    exact ⟨fun _ => rfl, fun _ _ h => by cases h⟩
  · rw [titleParam_of_ne hempty]
    simp [titlePattern_storable]

theorem bind_statusParam {statusFilter : PyStr} (h : statusFilter ∈ statusFilters) :
    ∃ t, bindNullable (statusParam statusFilter) = .ok t := by
  rw [bindNullable_ok_iff]
  have hall : ∀ s ∈ statusFilters, s.storable = true := by decide +kernel
  intro text htext
  unfold statusParam at htext
  split at htext
  · cases htext
  · cases htext
    exact hall _ h

theorem ilike_plain (h : likeWildcards.Plain q) (title : PyStr) :
    loc.ilike title (titlePattern q) = decide (Like.Contains loc.fold title q) := by
  have hlike : Like.like likeWildcards loc.fold title (titlePattern q) =
      some (decide (Like.Contains loc.fold title q)) := Like.like_plain (by decide) h
  rw [Locale.ilike, decide_eq_decide, hlike, Option.some.injEq, decide_eq_true_eq]

/-- A plain text asks for the titles that contain it. -/
theorem matchesFilter_plain (h : likeWildcards.Plain q) (projectId : ℕ) (status : Option PyStr)
    (i : Issue) : matchesFilter loc projectId status (titleParam (some q)) i =
      (i.projectId = projectId && (status.all fun s => statusStr i.status = s) &&
        Like.Contains loc.fold i.title.val q) := by
  by_cases hempty : q = []
  · subst hempty
    have hcontains : Like.Contains loc.fold i.title.val [] := List.nil_infix
    rw [matchesFilter, titleParam_nil, Option.all_none, decide_eq_true hcontains]
  · rw [matchesFilter, titleParam_of_ne hempty, Option.all_some, ilike_plain h]

theorem matchingIssues_plain (h : likeWildcards.Plain q) (db : Db) (orgId projectId : ℕ)
    (statusFilter : PyStr) : matchingIssues loc db orgId projectId statusFilter (some q) =
      issuesContaining loc db orgId projectId statusFilter q :=
  List.filter_congr fun i _ => matchesFilter_plain h projectId (statusParam statusFilter) i

theorem finds_plain (h : PlainText q) : FindsTitles loc q := by
  intro plans db hkey orgId projectId hproject statusFilter hstatus sort hsort perPage hper
  obtain ⟨key, hkeyOf⟩ := Option.isSome_iff_exists.mp hsort
  have hlistable : Listable db orgId projectId statusFilter (some q) sort key :=
    ⟨hkeyOf, hproject, bind_statusParam hstatus, bind_titleParam_iff.mpr h.2⟩
  obtain ⟨pages, hpages, -, hlisted⟩ := listed_pages loc hlistable hkey hper plans
  refine ⟨pages, hpages, ?_⟩
  rw [hlisted, ← matchingIssues_plain h.1]
  exact ((plans 0).perm key _).map issueDict

theorem project_visible (issues : List IssueRow) :
    3 ∈ ((projectWith issues).issueView (.tenant 1)).projects := List.mem_singleton.mpr rfl

theorem storable_of_finds (h : FindsTitles loc q) : q.storable = true := by
  obtain ⟨pages, hpages, -⟩ := h (fun _ => insertionPlan) (projectWith []) (by decide) 1 3
    (project_visible []) (py "all") (by decide +kernel) (py "last_seen") (by decide +kernel) 1
    le_rfl
  obtain ⟨key, hlistable⟩ := listable_of_page (hpages 0)
  exact bind_titleParam_iff.mp hlistable.title

theorem view_projectWith (i : IssueRow) (h : i.orgId = 1) :
    ((projectWith [i]).issueView (.tenant 1)).issues = [i.toIssue] := by
  have hadmits : (Scope.tenant 1).admits (tenant i) = true := decide_eq_true h
  simp [Db.issueView, projectWith, select, hadmits]

/-- A title found without containing the text is one issue too many. -/
theorem contains_of_finds (h : FindsTitles loc q) (title : Text)
    (hlike : loc.ilike title.val (titlePattern q) = true) : Like.Contains loc.fold title.val q := by
  by_contra hnot
  have hne : q ≠ [] := by
    rintro rfl
    exact hnot List.nil_infix
  let i := issueTitled 5 title
  have hview := view_projectWith i rfl
  have hmatching : matchingIssues loc (projectWith [i]) 1 3 (py "all") (some q) = [i.toIssue] := by
    have hfilter : matchesFilter loc 3 (statusParam (py "all")) (titleParam (some q)) i.toIssue =
        true := by
      have hstatus : statusParam (py "all") = none := if_pos rfl
      have htitle : loc.ilike i.toIssue.title.val (titlePattern q) = true := hlike
      rw [matchesFilter, titleParam_of_ne hne, Option.all_some, htitle, hstatus]
      rfl
    rw [matchingIssues, hview, List.filter_cons_of_pos hfilter, List.filter_nil]
  have hnone : issuesContaining loc (projectWith [i]) 1 3 (py "all") q = [] := by
    rw [issuesContaining, hview, List.filter_cons_of_neg (by simp [i, issueTitled, hnot]),
      List.filter_nil]
  have hkey : ((projectWith [i]).issues.map fun i => i.id).Nodup := List.nodup_singleton _
  obtain ⟨pages, hpages, hperm⟩ := h (fun _ => insertionPlan) (projectWith [i]) hkey 1 3
    (project_visible [i]) (py "all") (by decide +kernel) (py "last_seen") (by decide +kernel) 1
    le_rfl
  obtain ⟨key, hlistable⟩ := listable_of_page (hpages 0)
  obtain ⟨pages', hpages', -, hlisted⟩ := listed_pages loc hlistable hkey le_rfl
    fun _ => insertionPlan
  have hsame : pages = pages' := by
    funext i
    exact Option.some.inj (Except.ok.inj ((hpages i).symm.trans (hpages' i)))
  rw [hsame, hlisted, hmatching, hnone] at hperm
  have hlength := hperm.length_eq
  rw [List.length_map, (insertionPlan.perm key _).length_eq] at hlength
  cases hlength

/-- A text that is not plain finds a title that does not contain it. -/
theorem plain_of_finds (h : FindsTitles loc q) : likeWildcards.Plain q := by
  by_contra hplain
  have hone : loc.fold likeWildcards.one ≠ loc.fold (CodePoint.ofNat 0x7A) := by
    rw [loc.ascii _ (by decide), loc.ascii _ (by decide)]
    decide
  have hescape : loc.fold likeWildcards.escape ≠ loc.fold likeWildcards.many := by
    rw [loc.ascii _ (by decide), loc.ascii _ (by decide)]
    decide
  obtain ⟨title, hchars, hlike, hnot⟩ := Like.exists_like_of_not_plain hone hescape hplain
  have htitle : PyStr.storable title = true := by
    rw [PyStr.storable, List.all_eq_true]
    intro c hc
    rcases hchars c hc with hc | rfl | rfl
    · exact List.all_eq_true.mp (storable_of_finds h) c hc
    · decide
    · decide
  exact hnot (contains_of_finds h ⟨title, htitle⟩ (decide_eq_true hlike))

end Search

/-- Title search is substring search for exactly the plain texts. -/
theorem title_search_is_substring_search_iff_plain (loc : Locale) (q : PyStr) :
    FindsTitles loc q ↔ PlainText q :=
  ⟨fun h => ⟨plain_of_finds h, storable_of_finds h⟩, finds_plain⟩

theorem underscore_search_finds_other_titles : ¬ ∀ q : PyStr, FindsTitles asciiLocale q := by
  intro hall
  have hplain := plain_of_finds (hall (py "user_id"))
  exact absurd hplain (by decide +kernel)

end Crashlens.Tenant
