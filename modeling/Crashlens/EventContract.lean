import Crashlens.LibraryFrames
import Crashlens.NormalizeSpec
import Crashlens.PythonEvents

/-!
# What the Python SDK promises the server

The SDK cuts its events where the server would: as many frames, causes and breadcrumbs as the
normaliser keeps, and an id, a timestamp and a level that validation accepts. So the server drops
nothing of an event, whatever graph of exceptions it was captured from; it only cuts off strings.
The exception that decides grouping is the one the causes lead to.
-/

namespace Crashlens

open Assoc

/-! ## Documents whose strings are cut off -/

/-- The same document with the same fields and as many elements in each list, strings cut off. -/
inductive Shortened : Json → Json → Prop
  | same (v : Json) : Shortened v v
  | cut (s : PyStr) (limit : ℕ) : Shortened (.str s) (.str (truncateString s limit))
  | arr {xs ys : List Json} : List.Forall₂ Shortened xs ys → Shortened (.arr xs) (.arr ys)
  | obj {d out : Dict} : keys out = keys d →
      (∀ k v w, d.lookup k = some v → out.lookup k = some w → Shortened v w) →
      Shortened (.obj d) (.obj out)

theorem Shortened.field {d out : Dict} (h : Shortened (.obj d) (.obj out)) {k : PyStr} {v w : Json}
    (hv : d.lookup k = some v) (hw : out.lookup k = some w) : Shortened v w := by
  cases h with
  | same =>
      rw [hv] at hw
      cases hw
      exact .same v
  | obj _ hfields => exact hfields k v w hv hw

/-- An exception with as many frames as are kept, whose causes end after `n` steps. -/
inductive Fits : ℕ → Dict → Prop
  | root {n : ℕ} {d : Dict} : (frameList d).length ≤ maxFrames → d.lookup (py "cause") = none →
      Fits n d
  | caused {n : ℕ} {d cause : Dict} : (frameList d).length ≤ maxFrames →
      d.get "cause" = .obj cause → Fits n cause → Fits (n + 1) d

structure WithinCounts (event : Dict) : Prop where
  exception : ∀ exception, event.get "exception" = .obj exception →
    Fits (maxCauseDepth - 1) exception
  breadcrumbs : ∀ crumbs, event.get "breadcrumbs" = .arr crumbs → crumbs.length ≤ maxBreadcrumbs

section Rules

theorem shortened_truncateIfStr (limit : ℕ) (v : Json) : Shortened v (truncateIfStr limit v) := by
  cases v with
  | str s => exact .cut s limit
  | _ => exact .same _

theorem shortened_truncateRule {limit : ℕ} {v w : Json} (h : truncateRule limit v = some w) :
    Shortened v w := by
  cases v with
  | str s =>
      cases h
      exact .cut s limit
  | _ => cases h

theorem shortened_linesRule {v w : Json} (h : linesRule v = some w) : Shortened v w := by
  cases v with
  | arr lines =>
      cases h
      refine .arr ?_
      rw [List.forall₂_map_right_iff]
      exact List.forall₂_same.mpr fun line _ => shortened_truncateIfStr contextLineMax line
  | _ => cases h

/-- Revising fields shortens a document when each rule shortens the field it is for. -/
theorem shortened_reviseAll {rules : List (PyStr × Rule)} {d : Dict}
    (hnodup : (rules.map Prod.fst).Nodup)
    (hrules : ∀ k rule, (k, rule) ∈ rules → ∀ v w, d.lookup k = some v → rule v = some w →
      Shortened v w) : Shortened (.obj d) (.obj (reviseAll rules d)) := by
  refine .obj (keys_reviseAll d rules) fun k v w hv hw => ?_
  by_cases hk : k ∈ rules.map Prod.fst
  · obtain ⟨⟨k', rule⟩, hmem, rfl⟩ := List.mem_map.mp hk
    rw [lookup_reviseAll_of_mem d rules hnodup hmem, hv, Option.map_some] at hw
    cases hrule : rule v with
    | none =>
        rw [hrule] at hw
        cases hw
        exact .same v
    | some w' =>
        rw [hrule] at hw
        cases hw
        exact hrules _ rule hmem v w' hv hrule
  · rw [lookup_reviseAll_ne d rules hk, hv] at hw
    cases hw
    exact .same v

theorem shortened_revise {key : String} {rule : Rule} {d : Dict}
    (hrule : ∀ v w, d.lookup (py key) = some v → rule v = some w → Shortened v w) :
    Shortened (.obj d) (.obj (revise (py key) rule d)) := by
  have hnodup : ([(py key, rule)].map Prod.fst).Nodup := List.nodup_singleton _
  refine shortened_reviseAll hnodup ?_
  intro k rule' hmem
  cases List.mem_singleton.mp hmem
  exact hrule

theorem shortened_normalizeFrame (frame : Json) : Shortened frame (normalizeFrame frame) := by
  cases frame with
  | obj frame =>
      rw [normalizeFrame_obj]
      refine shortened_reviseAll (by decide) fun k rule hmem v w _ hw => ?_
      simp only [frameRules, List.mem_cons, List.not_mem_nil, or_false] at hmem
      obtain h | h | h | h | h := hmem
      all_goals cases h
      · exact shortened_truncateRule hw
      · exact shortened_truncateRule hw
      · exact shortened_truncateRule hw
      · exact shortened_linesRule hw
      · exact shortened_linesRule hw
  | _ => exact .same _

end Rules

/-! ## Events within the counts -/

section Counts

theorem lookup_of_get {d : Dict} {key : String} {v : Json} (h : d.get key = v) (hv : v ≠ .null) :
    d.lookup (py key) = some v := by
  unfold Dict.get at h
  cases hlookup : d.lookup (py key) with
  | none =>
      rw [hlookup] at h
      exact absurd h.symm hv
  | some w =>
      rw [hlookup] at h
      exact congrArg some h

theorem shortened_capFrames {d : Dict} (h : (frameList d).length ≤ maxFrames) :
    Shortened (.obj d) (.obj (capFrames d)) := by
  rw [capFrames_eq]
  refine shortened_revise fun v w hlookup hw => ?_
  have hget : d.get "stacktrace" = v := by rw [Dict.get, hlookup, Option.getD_some]
  cases v with
  | obj stacktrace =>
      cases hframes : Dict.get stacktrace "frames" with
      | arr frames =>
          rw [frameList_of_list hget hframes] at h
          rw [stackRule, hframes] at hw
          cases hw
          rw [lastN_of_le h]
          have hin := lookup_of_get hframes (by simp)
          refine .obj (keys_upsert_of_mem _ _ (by rw [hin]; rfl)) fun k v w hv hw => ?_
          by_cases hk : k = py "frames"
          · subst hk
            rw [Dict.lookup_set_self] at hw
            rw [hin] at hv
            cases hv
            cases hw
            refine .arr ?_
            rw [List.forall₂_map_right_iff]
            exact List.forall₂_same.mpr fun frame _ => shortened_normalizeFrame frame
          · rw [Dict.lookup_set_ne _ hk, hv] at hw
            cases hw
            exact .same v
      | _ =>
          rw [stackRule, hframes] at hw
          cases hw
  | _ => cases hw

/-- No exception of a chain that fits is cut off, by induction on the causes. -/
theorem shortened_normalizeException {left : ℕ} {d : Dict} (h : Fits left d) :
    Shortened (.obj d) (.obj (normalizeException left d)) := by
  induction h with
  | @root n d hframes hroot =>
      have hno (cause : Dict) : d.get "cause" ≠ .obj cause := by
        rw [Dict.get, hroot]
        intro h
        cases h
      have hpop : (capFrames d).pop "cause" = capFrames d := by
        refine List.filter_eq_self.mpr fun kv hkv => ?_
        have hkey : kv.1 ∈ keys d := by
          rw [← keys_capFrames d]
          exact List.mem_map_of_mem hkv
        refine decide_eq_true fun hcause => ?_
        rw [hcause, ← lookup_isSome_iff, hroot] at hkey
        cases hkey
      rw [normalizeException_last (.inr hno), hpop]
      exact shortened_capFrames hframes
  | @caused n d cause hframes hcause _ ih =>
      rw [normalizeException_cause n hcause]
      have hin := lookup_of_get hcause (by simp)
      have hin' : ((capFrames d).lookup (py "cause")).isSome := by
        rw [capFrames_lookup d (by decide), hin]
        rfl
      refine .obj ((keys_upsert_of_mem _ _ hin').trans (keys_capFrames d)) fun k v w hv hw => ?_
      by_cases hk : k = py "cause"
      · subst hk
        rw [Dict.lookup_set_self] at hw
        rw [hin] at hv
        cases hv
        cases hw
        exact ih
      · rw [Dict.lookup_set_ne _ hk] at hw
        exact (shortened_capFrames hframes).field hv hw

/-- Of an event within the counts the normaliser only cuts off strings. Its tags are left out here:
two keys that are cut off to one text become one entry. -/
theorem shortened_capEnvelope {event : Dict} (h : WithinCounts event) :
    Shortened (.obj (event.pop "tags")) (.obj ((capEnvelope event).pop "tags")) := by
  have herase (d : Dict) : keys (d.pop "tags") = (keys d).filter (· ≠ py "tags") := keys_erase d
  rw [capEnvelope_eq]
  refine .obj (by rw [herase, herase, keys_reviseAll]) fun k v w hv hw => ?_
  rw [Dict.lookup_pop] at hv hw
  split_ifs at hv hw with htags
  have hget {key : String} (hk : k = py key) : event.get key = v := by
    subst hk
    rw [Dict.get, hv, Option.getD_some]
  by_cases hk : k ∈ envelopeRules.map Prod.fst
  · obtain ⟨⟨k', rule⟩, hmem, rfl⟩ := List.mem_map.mp hk
    rw [lookup_reviseAll_of_mem event envelopeRules (by decide) hmem, hv, Option.map_some] at hw
    cases hw
    simp only [envelopeRules, List.mem_cons, List.not_mem_nil, or_false] at hmem
    obtain hmem | hmem | hmem | hmem := hmem
    all_goals cases hmem
    · cases hrule : truncateRule messageMax v with
      | none => exact .same v
      | some w => exact shortened_truncateRule hrule
    · exact absurd rfl htags
    · cases v with
      | arr crumbs =>
          rw [breadcrumbsRule, Option.getD_some, lastN_of_le (h.breadcrumbs crumbs (hget rfl))]
          exact .same _
      | _ => exact .same _
    · cases v with
      | obj exception => exact shortened_normalizeException (h.exception exception (hget rfl))
      | _ => exact .same _
  · rw [lookup_reviseAll_ne event envelopeRules hk, hv] at hw
    cases hw
    exact .same v

end Counts

/-! ## Ids -/

/-- Python reads the timestamps the SDK writes, up to the year 9999. -/
structure Runtime.ReadsEvents (rt : Runtime) : Prop where
  timestamp : ∀ now, 0 ≤ now → now < 253402300800000000 →
    isRfc3339 rt (Python.nowRfc3339 now) = true

section Ids

theorem isHexDigit_hexDigit : ∀ n < 16, isHexDigit (hexDigit n) = true := by decide

theorem isHexDigit_toHex (width n : ℕ) : ∀ c ∈ toHex width n, isHexDigit c = true := by
  induction width generalizing n with
  | zero => exact fun c hc => nomatch hc
  | succ width ih =>
      intro c hc
      rw [toHex] at hc
      obtain hc | hc := List.mem_append.mp hc
      · exact ih _ c hc
      · rw [List.mem_singleton.mp hc]
        exact isHexDigit_hexDigit _ (Nat.mod_lt _ (by decide))

theorem length_toHex (width n : ℕ) : (toHex width n).length = width := by
  induction width generalizing n with
  | zero => rfl
  | succ width ih => rw [toHex, List.length_append, ih, List.length_singleton]

/-- The digits of an id without its hyphens. -/
def uuidDigits (n : ℕ) : PyStr :=
  toHex 8 (n >>> 96) ++ toHex 4 (n >>> 80) ++ toHex 4 (n >>> 64) ++ toHex 4 (n >>> 48) ++ toHex 12 n

theorem isHexDigit_uuidDigits (n : ℕ) : ∀ c ∈ uuidDigits n, isHexDigit c = true := by
  intro c hc
  simp only [uuidDigits, List.mem_append] at hc
  obtain (((hc | hc) | hc) | hc) | hc := hc
  all_goals exact isHexDigit_toHex _ _ c hc

/-- A character that is no part of a text starts no match in it. -/
theorem replace_of_notMem {p : CodePoint} {ps s : PyStr} (rep : PyStr) (h : p ∉ s) :
    replace s (p :: ps) rep = s := by
  suffices hall : ∀ prev, substitute (fun _ rest =>
      if (p :: ps).isPrefixOf rest then (p :: ps).length else 0) rep prev 0 s = s from hall none
  induction s with
  | nil => exact fun _ => rfl
  | cons c cs ih =>
      intro prev
      obtain ⟨hc, hcs⟩ := not_or.mp (List.mem_cons.not.mp h)
      have hno : (p :: ps).isPrefixOf (c :: cs) = false := by
        rw [List.isPrefixOf_cons_cons, beq_eq_false_iff_ne.mpr hc, Bool.false_and]
      rw [substitute, hno]
      exact congrArg (c :: ·) (ih hcs _)

/-- Removing one character filters it out. -/
theorem replace_single (c : CodePoint) (s : PyStr) : replace s [c] [] = s.filter (· ≠ c) := by
  suffices hall : ∀ prev, substitute (fun _ rest =>
      if [c].isPrefixOf rest then [c].length else 0) [] prev 0 s = s.filter (· ≠ c) from hall none
  induction s with
  | nil => exact fun _ => rfl
  | cons d ds ih =>
      intro prev
      have hprefix : [c].isPrefixOf (d :: ds) = (c == d) := by
        rw [List.isPrefixOf_cons_cons, List.isPrefixOf_nil_left, Bool.and_true]
      rw [substitute, hprefix]
      by_cases hd : d = c
      · subst hd
        rw [beq_self_eq_true, List.filter_cons_of_neg (by simp)]
        exact ih _
      · rw [beq_eq_false_iff_ne.mpr (Ne.symm hd), List.filter_cons_of_pos (by simpa using hd)]
        exact congrArg (d :: ·) (ih _)

theorem strip_of_none {drop : CodePoint → Bool} {s : PyStr} (h : ∀ c ∈ s, drop c = false) :
    strip drop s = s := by
  have hkeep (s : PyStr) (h : ∀ c ∈ s, drop c = false) : s.dropWhile drop = s := by
    cases s with
    | nil => rfl
    | cons c cs => rw [List.dropWhile_cons_of_neg (by simp [h c List.mem_cons_self])]
  rw [strip, hkeep s h, rstrip, hkeep s.reverse fun c hc => h c (List.mem_reverse.mp hc),
    List.reverse_reverse]

theorem isDigitRun_of_hex : ∀ {s : PyStr}, s ≠ [] → (∀ c ∈ s, isHexDigit c = true) →
    isDigitRun s = true
  | [], h, _ => absurd rfl h
  | [c], _, hhex => hhex c List.mem_cons_self
  | c :: d :: cs, _, hhex => by
    have htail : isDigitRun (d :: cs) = true :=
      isDigitRun_of_hex (List.cons_ne_nil _ _) fun c hc => hhex c (List.mem_cons_of_mem _ hc)
    have hd : d.val ≠ 0x5F := by
      intro heq
      have hhexd := hhex d (List.mem_cons_of_mem _ List.mem_cons_self)
      simp [isHexDigit, heq] at hhexd
    rw [isDigitRun, hhex c List.mem_cons_self, if_neg hd, htail, Bool.and_true]

variable {rt : Runtime}

theorem isHexDigit_lt {c : CodePoint} (h : isHexDigit c = true) : 48 ≤ c.val ∧ c.val < 128 := by
  simp only [isHexDigit, Bool.or_eq_true, Bool.and_eq_true, decide_eq_true_eq] at h
  omega

theorem intBase16Ok_of_hex {s : PyStr} (hne : s ≠ [])
    (hhex : ∀ c ∈ s, isHexDigit c = true) : intBase16Ok rt s = true := by
  have hsame : transformDecimalAndSpace rt s = s :=
    if_pos (List.all_eq_true.mpr fun c hc => decide_eq_true (isHexDigit_lt (hhex c hc)).2)
  have hstrip : strip isCSpace s = s := by
    refine strip_of_none fun c hc => ?_
    have hbound := (isHexDigit_lt (hhex c hc)).1
    simp only [isCSpace, Bool.or_eq_false_iff, Bool.and_eq_false_iff, decide_eq_false_iff_not]
    omega
  have hrun := isDigitRun_of_hex hne hhex
  rw [intBase16Ok, hsame, hstrip]
  cases s with
  | nil => exact absurd rfl hne
  | cons c cs =>
      have hc := hhex c List.mem_cons_self
      have hsign : ¬ (c.val = 0x2B ∨ c.val = 0x2D) := by
        rintro (heq | heq)
        all_goals simp [isHexDigit, heq] at hc
      dsimp only
      rw [if_neg hsign]
      cases cs with
      | nil => exact hrun
      | cons x xs =>
          have hx := hhex x (List.mem_cons_of_mem _ List.mem_cons_self)
          have hno : ¬ (c.val = 0x30 ∧ (x.val = 0x78 ∨ x.val = 0x58)) := by
            rintro ⟨-, heq | heq⟩
            all_goals simp [isHexDigit, heq] at hx
          dsimp only
          rw [if_neg hno]
          exact hrun

theorem mem_uuidStr {n : ℕ} {c : CodePoint} (h : c ∈ uuidStr n) :
    isHexDigit c = true ∨ c = CodePoint.ofNat 0x2D := by
  have hhyphen : c ∈ py "-" → c = CodePoint.ofNat 0x2D := List.mem_singleton.mp
  simp only [uuidStr, List.mem_append] at h
  obtain (((((((h | h) | h) | h) | h) | h) | h) | h) | h := h
  all_goals first
    | exact .inl (isHexDigit_toHex _ _ c h)
    | exact .inr (hhyphen h)

theorem filter_uuidStr (n : ℕ) :
    (uuidStr n).filter (· ≠ CodePoint.ofNat 0x2D) = uuidDigits n := by
  have hkeep (width m : ℕ) : (toHex width m).filter (· ≠ CodePoint.ofNat 0x2D) = toHex width m := by
    refine List.filter_eq_self.mpr fun c hc => decide_eq_true fun heq => ?_
    have hhex := isHexDigit_toHex width m c hc
    rw [heq] at hhex
    exact absurd hhex (by decide)
  have hdrop : (py "-").filter (· ≠ CodePoint.ofNat 0x2D) = [] := by decide
  simp only [uuidStr, uuidDigits, List.filter_append, hkeep, hdrop, List.append_nil]

/-- `uuid.UUID(str(id))` reads every id that `str` writes. -/
theorem uuidOk_uuidStr (n : ℕ) : uuidOk rt (uuidStr n) = true := by
  have hnotin {c : CodePoint} (hhex : isHexDigit c = false) (hc : c ≠ CodePoint.ofNat 0x2D) :
      c ∉ uuidStr n := by
    intro hmem
    obtain h | h := mem_uuidStr hmem
    · rw [h] at hhex
      cases hhex
    · exact hc h
  have hurn : replace (uuidStr n) (py "urn:") [] = uuidStr n :=
    replace_of_notMem [] (hnotin (by decide) (by decide))
  have huuid : replace (uuidStr n) (py "uuid:") [] = uuidStr n :=
    replace_of_notMem [] (hnotin (by decide) (by decide))
  have hbraces : strip (py "\x7b\x7d").contains (uuidStr n) = uuidStr n := by
    refine strip_of_none fun c hc => ?_
    obtain h | rfl := mem_uuidStr hc
    · rw [List.contains_eq_mem, decide_eq_false]
      intro hbrace
      obtain rfl | hbrace := List.mem_cons.mp hbrace
      · exact absurd h (by decide)
      · rw [List.mem_singleton.mp hbrace] at h
        exact absurd h (by decide)
    · decide
  have hdigits : replace (uuidStr n) (py "-") [] = uuidDigits n :=
    (replace_single _ _).trans (filter_uuidStr n)
  have hlength : (uuidDigits n).length = 32 := by
    simp only [uuidDigits, List.length_append, length_toHex]
  have hne : uuidDigits n ≠ [] := by
    intro hnil
    rw [hnil] at hlength
    cases hlength
  rw [uuidOk, hurn, huuid, hbraces, hdigits, hlength,
    intBase16Ok_of_hex hne (isHexDigit_uuidDigits n)]
  rfl

end Ids

/-! ## Events of the Python SDK -/

namespace Python

section Fields

theorem lookup_optional (key : String) (v : Option Json) (k : PyStr) :
    (optional key v).lookup k = if k = py key then v else none := by
  cases v with
  | none => rw [optional, List.lookup_nil, ite_self]
  | some v =>
      rw [optional, List.lookup_cons, List.lookup_nil]
      by_cases hk : k = py key
      · rw [hk, beq_self_eq_true, if_pos rfl]
      · rw [beq_eq_false_iff_ne.mpr hk, if_neg hk]

variable {ε : Type} [DecidableEq ε] (client : Client) (site : CaptureSite ε) (draft : Draft ε)

theorem buildEvent_required : (buildEvent client site draft).get "event_id" =
      .str (uuidStr site.uuid) ∧
    (buildEvent client site draft).get "timestamp" = .str (nowRfc3339 site.now) ∧
    (buildEvent client site draft).get "platform" = .str (py "python") ∧
    (buildEvent client site draft).get "level" = .str draft.level ∧
    (buildEvent client site draft).get "environment" = .str client.environment ∧
    (buildEvent client site draft).get "sdk" =
      .obj [(py "name", .str sdkName), (py "version", .str sdkVersion)] :=
  ⟨rfl, rfl, rfl, rfl, rfl, rfl⟩

theorem buildEvent_message :
    (buildEvent client site draft).get "message" = (draft.message.map .str).getD .null := by
  have hrequired : (requiredFields client site draft.level).lookup (py "message") = none := rfl
  unfold buildEvent Dict.get
  simp +decide only [List.lookup_append, lookup_optional, hrequired, Option.none_or, if_true,
    if_false, Option.or_none]

theorem buildEvent_exception : (buildEvent client site draft).get "exception" =
    (exceptionField client site draft.excInfo).getD .null := by
  have hrequired : (requiredFields client site draft.level).lookup (py "exception") = none := rfl
  unfold buildEvent Dict.get
  simp +decide only [List.lookup_append, lookup_optional, hrequired, Option.none_or, if_true,
    if_false, Option.or_none]

theorem buildEvent_breadcrumbs : (buildEvent client site draft).get "breadcrumbs" =
    (breadcrumbsField site.scope).getD .null := by
  have hrequired : (requiredFields client site draft.level).lookup (py "breadcrumbs") = none := rfl
  unfold buildEvent Dict.get
  simp +decide only [List.lookup_append, lookup_optional, hrequired, Option.none_or, if_true,
    if_false, Option.or_none]

end Fields

/-! ## Validation -/

section Validation

variable {ε : Type} [DecidableEq ε] {client : Client} {site : CaptureSite ε} {draft : Draft ε}
  {rt : Runtime}

theorem checkBody_buildEvent (h : draft.message.isSome = true ∨ draft.excInfo.isSome = true) :
    checkBody (buildEvent client site draft) = .ok () := by
  rw [checkBody, buildEvent_message, buildEvent_exception, exceptionField]
  cases hmessage : draft.message with
  | some message =>
      cases draft.excInfo with
      | some exc => rfl
      | none => rfl
  | none =>
      cases hexc : draft.excInfo with
      | some exc => rfl
      | none =>
          rw [hmessage, hexc] at h
          simp at h

theorem validateEnvelope_buildEvent (hrt : rt.ReadsEvents) (henv : client.environment ≠ [])
    (hnow : 0 ≤ site.now ∧ site.now < 253402300800000000) (hlevel : draft.level ∈ validLevels)
    (hbody : draft.message.isSome = true ∨ draft.excInfo.isSome = true) :
    validateEnvelope rt (buildEvent client site draft) = .ok () := by
  obtain ⟨hid, htimestamp, hplatform, hlevel', henvironment, hsdk⟩ :=
    buildEvent_required client site draft
  obtain ⟨c, cs, hcons⟩ := List.exists_cons_of_ne_nil henv
  have hidOk : checkEventId rt (buildEvent client site draft) = .ok () := by
    rw [checkEventId, hid]
    exact if_pos (uuidOk_uuidStr site.uuid)
  have htimestampOk : checkTimestamp rt (buildEvent client site draft) = .ok () := by
    rw [checkTimestamp, htimestamp]
    exact if_pos (hrt.timestamp site.now hnow.1 hnow.2)
  have hplatformOk :
      requireNonemptyStr (buildEvent client site draft) "platform" "platform" = .ok () := by
    rw [requireNonemptyStr, hplatform]
    rfl
  have hlevelOk : checkLevel (buildEvent client site draft) = .ok () := by
    rw [checkLevel, hlevel']
    exact if_pos hlevel
  have henvironmentOk :
      requireNonemptyStr (buildEvent client site draft) "environment" "environment" = .ok () := by
    rw [requireNonemptyStr, henvironment, hcons]
  have hsdkOk : checkSdk (buildEvent client site draft) = .ok () := by
    rw [checkSdk, hsdk]
    rfl
  rw [validateEnvelope, hidOk, htimestampOk, hplatformOk, hlevelOk, henvironmentOk, hsdkOk]
  exact checkBody_buildEvent hbody

end Validation

/-! ## The counts of an event -/

section Counts

variable {ε : Type} [DecidableEq ε] (graph : Graph ε) (host : Host)
  (prefixes : Option (List PyStr))

theorem length_buildFrames (tb : List TraceEntry) :
    (buildFrames host prefixes tb).length ≤ maxFrames := by
  unfold buildFrames
  dsimp only
  split_ifs with hmore
  · exact lastN_length _ _
  · exact not_lt.mp hmore

theorem buildFrames_eq (tb : List TraceEntry) : buildFrames host prefixes tb =
    (lastN maxFrames tb).map fun entry => .obj (buildFrame host prefixes entry) := by
  unfold buildFrames
  dsimp only
  rw [← lastN_map]
  split_ifs with hmore
  · rfl
  · exact (lastN_of_le (not_lt.mp hmore)).symm

omit [DecidableEq ε] in
/-- What an exception says of itself, whatever its cause. -/
theorem exceptionFields_get (exc : ε) (rest : Dict) :
    (exceptionFields graph host prefixes exc ++ rest).get "type" = .str (graph exc).typeName ∧
    (exceptionFields graph host prefixes exc ++ rest).get "stacktrace" =
      .obj [(py "frames", .arr (buildFrames host prefixes (graph exc).traceback))] := ⟨rfl, rfl⟩

omit [DecidableEq ε] in
theorem frameList_exceptionFields (exc : ε) (rest : Dict) :
    frameList (exceptionFields graph host prefixes exc ++ rest) =
      buildFrames host prefixes (graph exc).traceback :=
  frameList_of_list (exceptionFields_get graph host prefixes exc rest).2 rfl

/-- A built exception is its own fields and, where a cause is followed, the cause built. -/
theorem buildException_eq (left : ℕ) (exc : ε) : ∃ rest,
    buildException graph host prefixes left exc = exceptionFields graph host prefixes exc ++ rest ∧
    (rest = [] ∧ (left = 0 ∨ followed graph exc = none) ∨ ∃ left' cause, left = left' + 1 ∧
      followed graph exc = some cause ∧
      rest = [(py "cause", .obj (buildException graph host prefixes left' cause))]) := by
  cases left with
  | zero => exact ⟨[], (List.append_nil _).symm, .inl ⟨rfl, .inl rfl⟩⟩
  | succ left =>
      rw [buildException]
      cases hcause : followed graph exc with
      | none => exact ⟨[], (List.append_nil _).symm, .inl ⟨rfl, .inr rfl⟩⟩
      | some cause => exact ⟨_, rfl, .inr ⟨left, cause, rfl, rfl, rfl⟩⟩

/-- Whatever the causes lead to, the built chain ends in time. -/
theorem fits_buildException (left : ℕ) (exc : ε) :
    Fits left (buildException graph host prefixes left exc) := by
  induction left generalizing exc with
  | zero =>
      refine .root ?_ rfl
      rw [buildException, ← List.append_nil (exceptionFields graph host prefixes exc),
        frameList_exceptionFields]
      exact length_buildFrames host prefixes _
  | succ left ih =>
      obtain ⟨rest, hbuilt, hrest⟩ := buildException_eq graph host prefixes (left + 1) exc
      have hframes : (frameList (exceptionFields graph host prefixes exc ++ rest)).length ≤
          Crashlens.maxFrames := by
        rw [frameList_exceptionFields]
        exact length_buildFrames host prefixes _
      rw [hbuilt]
      obtain ⟨rfl, -⟩ | ⟨left', cause, hleft, -, rfl⟩ := hrest
      · exact .root hframes rfl
      · obtain rfl := Nat.succ.inj hleft
        exact .caused hframes rfl (ih cause)

end Counts

section Contract

variable {ε : Type} [DecidableEq ε] {client : Client} {site : CaptureSite ε} {draft : Draft ε}

theorem withinCounts_buildEvent : WithinCounts (buildEvent client site draft) where
  exception exception hexc := by
    rw [buildEvent_exception, exceptionField] at hexc
    cases hinfo : draft.excInfo with
    | none =>
        rw [hinfo] at hexc
        cases hexc
    | some exc =>
        rw [hinfo] at hexc
        cases hexc
        exact fits_buildException _ _ _ _ exc
  breadcrumbs crumbs hcrumbs := by
    rw [buildEvent_breadcrumbs, breadcrumbsField] at hcrumbs
    split_ifs at hcrumbs
    · cases hcrumbs
    · cases hcrumbs
      rw [List.length_map]
      exact site.scope.breadcrumbs.bounded

omit [DecidableEq ε] in
/-- A capture has a message or an exception. -/
theorem draft_body {handled : Option ε} {c : Capture ε} (h : c.draft handled = some draft) :
    draft.level = c.level ∧ (draft.message.isSome = true ∨ draft.excInfo.isSome = true) := by
  cases c with
  | exception exc level text request =>
      obtain ⟨exc, -, rfl⟩ := Option.map_eq_some_iff.mp h
      exact ⟨rfl, .inr rfl⟩
  | message text level request =>
      cases h
      exact ⟨rfl, .inl rfl⟩

/-- The server accepts what the SDK captures, whatever the graph of exceptions, the tracebacks and
the breadcrumbs. Where there is room for a copy it drops nothing of it: it cuts off strings, and may
merge tags. -/
theorem captured_event_is_kept {rt : Runtime} (hrt : rt.ReadsEvents) (client : Client)
    (site : CaptureSite ε) (handled : Option ε) (c : Capture ε) (event : Dict)
    (henv : client.environment ≠ []) (hlevel : c.level ∈ validLevels)
    (hnow : 0 ≤ site.now ∧ site.now < 253402300800000000)
    (h : client.capture site handled c = some event) :
    validateEnvelope rt event = .ok () ∧
      ((∃ env, normalizeEnvelope rt event = .ok env ∧
        Shortened (.obj (event.pop "tags")) (.obj (env.pop "tags"))) ↔ Copyable rt event) := by
  obtain ⟨draft, hdraft, rfl⟩ := Option.map_eq_some_iff.mp h
  obtain ⟨hsame, hbody⟩ := draft_body hdraft
  rw [← hsame] at hlevel
  refine ⟨validateEnvelope_buildEvent hrt henv hnow hlevel hbody, ?_⟩
  simp only [normalizeEnvelope_ok_iff]
  constructor
  · rintro ⟨env, ⟨hcopy, -⟩, -⟩
    exact hcopy
  · exact fun hcopy => ⟨_, ⟨hcopy, rfl⟩, shortened_capEnvelope withinCounts_buildEvent⟩

end Contract

section Sample

/-- A runtime that reads the first instant of all, and every digit. -/
def epochRuntime : Runtime := { sampleRuntime with fromisoformat := fun _ => some 0 }

theorem epochRuntime_readsEvents : epochRuntime.ReadsEvents := ⟨fun _ _ _ => rfl⟩

def plainHost : Host := ⟨some, id, [], fun _ _ => []⟩

def traceEntry : TraceEntry :=
  ⟨py "/app/orders.py", py "total", some 12, 0, none, some (py "orders")⟩

/-- Two exceptions that cause each other. -/
def circle : Graph Bool := fun exc =>
  ⟨if exc then py "KeyError" else py "OrderError", none, [traceEntry], some !exc, none, false⟩

def sampleClient : Client := ⟨py "production", none, none⟩

theorem circle_is_kept : ∃ event,
    sampleClient.capture ⟨plainHost, circle, .empty, 1, 0⟩ none
      (.exception (.exception true) (py "error") none none) = some event ∧
    validateEnvelope epochRuntime event = .ok () ∧
      ∃ env, normalizeEnvelope epochRuntime event = .ok env ∧
        Shortened (.obj (event.pop "tags")) (.obj (env.pop "tags")) := by
  obtain ⟨haccepted, hkept⟩ := captured_event_is_kept epochRuntime_readsEvents sampleClient
    ⟨plainHost, circle, .empty, 1, 0⟩ none (.exception (.exception true) (py "error") none none) _
    (by decide) (by decide) (by decide) rfl
  exact ⟨_, rfl, haccepted, hkept.mpr (by decide +kernel)⟩

end Sample

section Handlers

variable {ε : Type}

theorem levelFromLogging_valid (levelno : ℤ) : levelFromLogging levelno ∈ validLevels := by
  unfold levelFromLogging
  split_ifs
  all_goals decide

/-- What the handlers and hooks capture has a level the server knows. -/
theorem handlers_level_valid : (∀ (record : LogRecord ε) (c : Capture ε), emit record = some c →
      c.level ∈ validLevels) ∧
    (∀ exc : ε, (sysHook exc).level ∈ validLevels) ∧
    (∀ (value : Option ε) (c : Capture ε), threadHook value = some c → c.level ∈ validLevels) ∧
    ∀ (exc : ε) (request : Option Dict), (requestHandler exc request).level ∈ validLevels := by
  refine ⟨fun record c h => ?_, fun exc => ?_, fun value c h => ?_, fun exc request => ?_⟩
  · unfold emit at h
    split_ifs at h
    split at h
    all_goals
      cases h
      exact levelFromLogging_valid record.levelno
  · exact List.mem_cons_self
  · cases value with
    | none => cases h
    | some exc =>
        cases h
        exact List.mem_cons_self
  · exact List.mem_cons_of_mem _ List.mem_cons_self

end Handlers

end Python

end Crashlens
