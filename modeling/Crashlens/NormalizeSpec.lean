import Crashlens.CauseChain

/-!
# What normalisation is for

The limits of the protocol as a relation between the envelope that came and the one that is kept,
field by field: strings are cut off, the last frames and breadcrumbs and the first exceptions stay,
and nothing else changes. The normaliser meets it unless two tags have keys that are cut off to one
text: they become one entry, with the value of the later.
-/

namespace Crashlens

open Assoc

/-! ## The specification -/

/-- A string that is too long ends in the marker. -/
structure CutOff (limit : ℕ) (s t : PyStr) : Prop where
  short : s.length ≤ limit → t = s
  long : limit < s.length → t.length = limit ∧ ∃ kept, kept <+: s ∧ t = kept ++ truncationMarker

def Truncated (limit : ℕ) : Json → Json → Prop
  | .str s, w => ∃ t, w = .str t ∧ CutOff limit s t
  | v, w => w = v

def LinesTruncated : Json → Json → Prop
  | .arr lines, w => ∃ lines', w = .arr lines' ∧
      List.Forall₂ (Truncated contextLineMax) lines lines'
  | v, w => w = v

/-- The last `n` elements stay, each related to what it was. -/
def KeptSuffix {α : Type} (n : ℕ) (R : α → α → Prop) (xs ys : List α) : Prop :=
  ∃ dropped kept, xs = dropped ++ kept ∧ kept.length = min n xs.length ∧ List.Forall₂ R kept ys

structure FrameFields (frame out : Dict) : Prop where
  keys : keys out = keys frame
  filename : Truncated filenameMax (frame.get "filename") (out.get "filename")
  function : Truncated functionMax (frame.get "function") (out.get "function")
  contextLine : Truncated contextLineMax (frame.get "context_line") (out.get "context_line")
  preContext : LinesTruncated (frame.get "pre_context") (out.get "pre_context")
  postContext : LinesTruncated (frame.get "post_context") (out.get "post_context")
  others : ∀ k ∉ frameRules.map Prod.fst, out.lookup k = frame.lookup k

def FrameKept : Json → Json → Prop
  | .obj frame, w => ∃ out, w = .obj out ∧ FrameFields frame out
  | v, w => w = v

structure StackFields (stacktrace out : Dict) (frames : List Json) : Prop where
  keys : keys out = keys stacktrace
  frames : ∃ frames', out.get "frames" = .arr frames' ∧
    KeptSuffix maxFrames FrameKept frames frames'
  others : ∀ k ≠ py "frames", out.lookup k = stacktrace.lookup k

/-- A stack trace changes only where its frames are a list. -/
def StackKept : Json → Json → Prop
  | .obj stacktrace, w =>
    match Dict.get stacktrace "frames" with
    | .arr frames => ∃ out, w = .obj out ∧ StackFields stacktrace out frames
    | _ => w = .obj stacktrace
  | v, w => w = v

/-- One exception of the chain, its cause apart: a cause that is no object is dropped. -/
structure ExceptionKept (exception out : Dict) : Prop where
  keys : keys (out.pop "cause") = keys (exception.pop "cause")
  stacktrace : StackKept (exception.get "stacktrace") (out.get "stacktrace")
  cause : ∀ v, out.lookup (py "cause") = some v → ∃ cause, v = .obj cause
  others : ∀ k, k ≠ py "stacktrace" → k ≠ py "cause" → out.lookup k = exception.lookup k

/-- The first exceptions of the chain stay. -/
def ChainKept : Json → Json → Prop
  | .obj exception, w => ∃ out, w = .obj out ∧
      List.Forall₂ ExceptionKept ((causeChain exception).take maxCauseDepth) (causeChain out)
  | v, w => w = v

def BreadcrumbsKept : Json → Json → Prop
  | .arr breadcrumbs, w => ∃ kept, w = .arr kept ∧ KeptSuffix maxBreadcrumbs Eq breadcrumbs kept
  | v, w => w = v

def TagTruncated (tag out : PyStr × Json) : Prop :=
  CutOff tagKeyMax tag.1 out.1 ∧ Truncated tagValueMax tag.2 out.2

/-- Each tag stays, its key and its value cut off, and there are no others. -/
structure TagEntries (tags out : Dict) : Prop where
  distinct : (keys out).Nodup
  kept : ∀ tag ∈ tags, ∃ tag' ∈ out, TagTruncated tag tag'
  only : ∀ tag' ∈ out, ∃ tag ∈ tags, TagTruncated tag tag'

def TagsKept : Json → Json → Prop
  | .obj tags, w => ∃ out, w = .obj out ∧ TagEntries tags out
  | v, w => w = v

structure MeetsSpec (envelope out : Dict) : Prop where
  within : WithinLimits out
  keys : keys out = keys envelope
  message : Truncated messageMax (envelope.get "message") (out.get "message")
  tags : TagsKept (envelope.get "tags") (out.get "tags")
  breadcrumbs : BreadcrumbsKept (envelope.get "breadcrumbs") (out.get "breadcrumbs")
  exception : ChainKept (envelope.get "exception") (out.get "exception")
  others : ∀ k ∉ normalizedFields, out.lookup k = envelope.lookup k

/-! ## Strings, frames and breadcrumbs -/

section Fields

theorem cutOff_truncateString {limit : ℕ} (h : truncationMarker.length ≤ limit) (s : PyStr) :
    CutOff limit s (truncateString s limit) where
  short := truncateString_of_le
  long hlong := by
    have hcut : truncateString s limit =
        s.take (limit - truncationMarker.length) ++ truncationMarker := if_neg (by omega)
    refine ⟨?_, _, List.take_prefix _ s, hcut⟩
    rw [hcut, List.length_append, List.length_take]
    omega

theorem CutOff.eq_truncateString {limit : ℕ} {s t : PyStr} (h : CutOff limit s t) :
    t = truncateString s limit := by
  by_cases hle : s.length ≤ limit
  · rw [h.short hle, truncateString_of_le hle]
  · obtain ⟨hlength, kept, hprefix, rfl⟩ := h.long (by omega)
    rw [List.length_append] at hlength
    have hkept : kept.length = limit - truncationMarker.length := by omega
    rw [truncateString, if_neg hle, ← hkept, ← List.prefix_iff_eq_take.mp hprefix]

theorem truncated_truncateIfStr {limit : ℕ} (h : truncationMarker.length ≤ limit) (v : Json) :
    Truncated limit v (truncateIfStr limit v) := by
  cases v with
  | str s => exact ⟨_, rfl, cutOff_truncateString h s⟩
  | _ => rfl

theorem Truncated.eq_truncateIfStr {limit : ℕ} {v w : Json} (h : Truncated limit v w) :
    w = truncateIfStr limit v := by
  cases v with
  | str s =>
      obtain ⟨t, rfl, ht⟩ := h
      rw [ht.eq_truncateString, truncateIfStr]
  | _ => exact h

theorem truncated_getD {limit : ℕ} (h : truncationMarker.length ≤ limit) (v : Json) :
    Truncated limit v ((truncateRule limit v).getD v) := by
  cases v with
  | str s => exact ⟨_, rfl, cutOff_truncateString h s⟩
  | _ => rfl

theorem linesTruncated_getD (v : Json) : LinesTruncated v ((linesRule v).getD v) := by
  cases v with
  | arr lines =>
      refine ⟨_, rfl, ?_⟩
      rw [List.forall₂_map_right_iff]
      exact List.forall₂_same.mpr fun line _ => truncated_truncateIfStr (by decide) line
  | _ => rfl

theorem keptSuffix_lastN {α : Type} {R : α → α → Prop} {f : α → α} (hR : ∀ x, R x (f x)) (n : ℕ)
    (xs : List α) : KeptSuffix n R xs ((lastN n xs).map f) := by
  refine ⟨xs.take (xs.length - n), lastN n xs, (List.take_append_drop _ xs).symm, ?_, ?_⟩
  · rw [lastN, List.length_drop]
    omega
  · rw [List.forall₂_map_right_iff]
    exact List.forall₂_same.mpr fun x _ => hR x

theorem get_reviseAll {rules : List (PyStr × Rule)} (hnodup : (rules.map Prod.fst).Nodup)
    {key : String} {rule : Rule} (hmem : (py key, rule) ∈ rules) (hnull : rule .null = none)
    (d : Dict) : Dict.get (reviseAll rules d) key = (rule (d.get key)).getD (d.get key) := by
  unfold Dict.get
  rw [lookup_reviseAll_of_mem d rules hnodup hmem]
  cases d.lookup (py key) with
  | none =>
      rw [Option.map_none, Option.getD_none, hnull]
      rfl
  | some v => rfl

theorem frameKept_normalizeFrame (frame : Json) : FrameKept frame (normalizeFrame frame) := by
  cases frame with
  | obj frame =>
      have hget (key : String) (rule : Rule) (hmem : (py key, rule) ∈ frameRules)
          (hnull : rule .null = none) : Dict.get (reviseAll frameRules frame) key =
            (rule (Dict.get frame key)).getD (Dict.get frame key) :=
        get_reviseAll (by decide) hmem hnull frame
      refine ⟨_, normalizeFrame_obj frame, keys_reviseAll frame _, ?_, ?_, ?_, ?_, ?_,
        fun k hk => lookup_reviseAll_ne frame _ hk⟩
      · rw [hget "filename" (truncateRule filenameMax) (by simp [frameRules]) rfl]
        exact truncated_getD (by decide) _
      · rw [hget "function" (truncateRule functionMax) (by simp [frameRules]) rfl]
        exact truncated_getD (by decide) _
      · rw [hget "context_line" (truncateRule contextLineMax) (by simp [frameRules]) rfl]
        exact truncated_getD (by decide) _
      · rw [hget "pre_context" linesRule (by simp [frameRules]) rfl]
        exact linesTruncated_getD _
      · rw [hget "post_context" linesRule (by simp [frameRules]) rfl]
        exact linesTruncated_getD _
  | _ => rfl

theorem stackKept_getD (v : Json) : StackKept v ((stackRule v).getD v) := by
  cases v with
  | obj stacktrace =>
      rw [stackRule, StackKept]
      cases hframes : Dict.get stacktrace "frames" with
      | arr frames =>
          have hsome : (stacktrace.lookup (py "frames")).isSome := by
            unfold Dict.get at hframes
            cases hlookup : stacktrace.lookup (py "frames") with
            | none =>
                rw [hlookup] at hframes
                cases hframes
            | some v => rfl
          exact ⟨_, rfl, keys_upsert_of_mem _ _ hsome,
            ⟨_, Dict.get_set_self .., keptSuffix_lastN frameKept_normalizeFrame _ _⟩,
            fun k hk => Dict.lookup_set_ne _ hk _⟩
      | _ => rfl
  | _ => rfl

theorem breadcrumbsKept_getD (v : Json) : BreadcrumbsKept v ((breadcrumbsRule v).getD v) := by
  cases v with
  | arr breadcrumbs =>
      have hkept := keptSuffix_lastN (fun x : Json => (rfl : x = id x)) maxBreadcrumbs breadcrumbs
      rw [List.map_id'] at hkept
      exact ⟨_, rfl, hkept⟩
  | _ => rfl

end Fields

/-! ## The chain -/

section Chain

theorem stackKept_capFrames (d : Dict) :
    StackKept (d.get "stacktrace") ((capFrames d).get "stacktrace") := by
  rw [capFrames_eq, get_revise_self d rfl]
  exact stackKept_getD _

theorem capFrames_lookup (d : Dict) {k : PyStr} (h : k ≠ py "stacktrace") :
    (capFrames d).lookup k = d.lookup k := by
  rw [capFrames_eq]
  exact lookup_revise_ne d h

theorem keys_capFrames (d : Dict) : keys (capFrames d) = keys d := by
  rw [capFrames_eq]
  exact keys_revise d

theorem exceptionKept_last (d : Dict) : ExceptionKept d ((capFrames d).pop "cause") where
  keys := by
    have herase (d : Dict) : keys (d.pop "cause") = (keys d).filter (· ≠ py "cause") :=
      keys_erase d
    rw [herase, herase, herase, keys_capFrames, List.filter_filter]
    simp only [Bool.and_self]
  stacktrace := by
    have hne : py "stacktrace" ≠ py "cause" := by decide
    rw [Dict.get_pop_ne _ hne]
    exact stackKept_capFrames d
  cause v hv := by
    rw [Dict.lookup_pop, if_pos rfl] at hv
    cases hv
  others k hst hcause := by
    rw [Dict.lookup_pop, if_neg hcause, capFrames_lookup d hst]

theorem exceptionKept_cause {d cause : Dict} (hcause : d.get "cause" = .obj cause) (v : Dict) :
    ExceptionKept d ((capFrames d).set "cause" (.obj v)) where
  keys := by
    have herase (d : Dict) : keys (d.pop "cause") = (keys d).filter (· ≠ py "cause") :=
      keys_erase d
    have hsome : ((capFrames d).lookup (py "cause")).isSome := by
      rw [capFrames_lookup d (by decide)]
      unfold Dict.get at hcause
      cases hlookup : d.lookup (py "cause") with
      | none =>
          rw [hlookup] at hcause
          cases hcause
      | some v => rfl
    have hkeys : keys ((capFrames d).set "cause" (.obj v)) = keys (capFrames d) :=
      keys_upsert_of_mem _ _ hsome
    rw [herase, herase, hkeys, keys_capFrames]
  stacktrace := by
    have hne : py "stacktrace" ≠ py "cause" := by decide
    rw [Dict.get_set_ne _ hne]
    exact stackKept_capFrames d
  cause w hw := by
    rw [Dict.lookup_set_self] at hw
    exact ⟨v, (Option.some.inj hw).symm⟩
  others k hst hcause := by
    rw [Dict.lookup_set_ne _ hcause, capFrames_lookup d hst]

theorem chainKept_getD (v : Json) : ChainKept v ((exceptionRule v).getD v) := by
  cases v with
  | obj exception =>
      exact ⟨_, rfl, forall₂_normalizeException exceptionKept_last
        (fun _ _ out hcause => exceptionKept_cause hcause out) _ exception⟩
  | _ => rfl

end Chain

/-! ## The tags -/

section Tags

variable {tags : Dict}

/-- Tags whose keys are cut off to one text have values that are cut off to one. -/
def TagsAgree (tags : Dict) : Prop :=
  ∀ a ∈ tags, ∀ b ∈ tags, truncateString a.1 tagKeyMax = truncateString b.1 tagKeyMax →
    truncateIfStr tagValueMax a.2 = truncateIfStr tagValueMax b.2

theorem tagTruncated_truncateTag (tag : PyStr × Json) : TagTruncated tag (truncateTag tag) :=
  ⟨cutOff_truncateString (by decide) tag.1, truncated_truncateIfStr (by decide) tag.2⟩

theorem TagTruncated.eq_truncateTag {tag out : PyStr × Json} (h : TagTruncated tag out) :
    out = truncateTag tag := Prod.ext h.1.eq_truncateString h.2.eq_truncateIfStr

theorem tagEntries_normalizeTags : TagEntries tags (normalizeTags tags) ↔ TagsAgree tags := by
  rw [normalizeTags_eq]
  constructor
  · rintro ⟨hdistinct, hkept, -⟩ a ha b hb hab
    obtain ⟨a', ha', hta⟩ := hkept a ha
    obtain ⟨b', hb', htb⟩ := hkept b hb
    obtain rfl := hta.eq_truncateTag
    obtain rfl := htb.eq_truncateTag
    exact congrArg Prod.snd (List.inj_on_of_nodup_map hdistinct ha' hb' hab)
  · intro hagree
    have honly (tag' : PyStr × Json) (h : tag' ∈ ofList (tags.map truncateTag)) :
        ∃ tag ∈ tags, truncateTag tag = tag' := List.mem_map.mp (mem_ofList _ h)
    refine ⟨nodup_keys_ofList _, fun tag htag => ?_, fun tag' htag' => ?_⟩
    · have hkey : (truncateTag tag).1 ∈ keys (ofList (tags.map truncateTag)) :=
        (mem_keys_ofList _).mpr (List.mem_map_of_mem (List.mem_map_of_mem htag))
      obtain ⟨tag', htag', hsame⟩ := List.mem_map.mp hkey
      obtain ⟨other, hother, rfl⟩ := honly tag' htag'
      have hvalue : (truncateTag tag).2 = (truncateTag other).2 :=
        hagree tag htag other hother hsame.symm
      have htags : truncateTag tag = truncateTag other := Prod.ext hsame.symm hvalue
      exact ⟨_, htag', htags ▸ tagTruncated_truncateTag tag⟩
    · obtain ⟨tag, htag, rfl⟩ := honly tag' htag'
      exact ⟨tag, htag, tagTruncated_truncateTag tag⟩

theorem capEnvelope_tags {envelope : Dict} (h : envelope.get "tags" = .obj tags) :
    (capEnvelope envelope).get "tags" = .obj (normalizeTags tags) := by
  have hmem : (py "tags", tagsRule) ∈ envelopeRules := by simp [envelopeRules]
  rw [capEnvelope_eq, get_reviseAll (by decide) hmem rfl, h]
  rfl

/-- Two tags of 33 and 34 characters, alike in the first 29. -/
def longTags : Dict :=
  [(List.replicate 33 (CodePoint.ofNat 0x61), .str (py "1")),
    (List.replicate 34 (CodePoint.ofNat 0x61), .str (py "2"))]

theorem length_normalizeTags_iff : (normalizeTags tags).length = tags.length ↔
    (tags.map fun tag => truncateString tag.1 tagKeyMax).Nodup := by
  have hkeys : keys (tags.map truncateTag) =
      tags.map fun tag => truncateString tag.1 tagKeyMax := by
    rw [keys, List.map_map]
    rfl
  have hlength : (tags.map truncateTag).length = tags.length := List.length_map truncateTag
  rw [normalizeTags_eq, ← hlength, length_ofList_iff, hkeys]

/-- An envelope is normalised without losing a tag exactly when it can be copied and no two keys are
cut off to the same text. -/
theorem tags_kept_iff (rt : Runtime) (envelope : Dict) (h : envelope.get "tags" = .obj tags) :
    (∃ env out : Dict, normalizeEnvelope rt envelope = .ok env ∧ env.get "tags" = .obj out ∧
      out.length = tags.length) ↔
      Copyable rt envelope ∧ (tags.map fun tag => truncateString tag.1 tagKeyMax).Nodup := by
  have htags : (capEnvelope envelope).get "tags" = .obj (normalizeTags tags) := capEnvelope_tags h
  simp only [normalizeEnvelope_ok_iff, ← length_normalizeTags_iff]
  constructor
  · rintro ⟨_, out, ⟨hcopy, rfl⟩, hout, hlength⟩
    cases htags.symm.trans hout
    exact ⟨hcopy, hlength⟩
  · rintro ⟨hcopy, hlength⟩
    exact ⟨_, _, ⟨hcopy, rfl⟩, htags, hlength⟩

theorem short_tags_kept : ∃ env out : Dict, normalizeEnvelope sampleRuntime
    [(py "tags", .obj [(py "a", .null), (py "b", .null)])] = .ok env ∧
      env.get "tags" = .obj out ∧ out.length = 2 :=
  (tags_kept_iff sampleRuntime [(py "tags", .obj [(py "a", .null), (py "b", .null)])] rfl).mpr
    (by decide +kernel)

/-- The two become one. -/
theorem long_tags_merged : Copyable sampleRuntime [(py "tags", .obj longTags)] ∧
    ¬ ∃ env out : Dict, normalizeEnvelope sampleRuntime [(py "tags", .obj longTags)] = .ok env ∧
      env.get "tags" = .obj out ∧ out.length = longTags.length := by
  refine ⟨by decide +kernel, ?_⟩
  rintro ⟨env, out, henv, hout, hlength⟩
  obtain ⟨-, rfl⟩ := normalizeEnvelope_ok_iff.mp henv
  have htags : (capEnvelope [(py "tags", .obj longTags)]).get "tags" =
      .obj (normalizeTags longTags) := capEnvelope_tags rfl
  cases htags.symm.trans hout
  exact absurd hlength (by decide)

end Tags

/-! ## The envelope -/

section Envelope

variable (envelope : Dict)

theorem tagsKept_capEnvelope :
    TagsKept (envelope.get "tags") ((capEnvelope envelope).get "tags") ↔
      ∀ tags, envelope.get "tags" = .obj tags → TagsAgree tags := by
  by_cases hobj : ∃ tags, envelope.get "tags" = .obj tags
  · obtain ⟨tags, htags⟩ := hobj
    rw [capEnvelope_tags htags, htags, TagsKept]
    constructor
    · rintro ⟨out, hout, hentries⟩ tags' htags'
      cases hout
      cases htags'
      exact tagEntries_normalizeTags.mp hentries
    · exact fun h => ⟨_, rfl, tagEntries_normalizeTags.mpr (h tags rfl)⟩
  · have hmem : (py "tags", tagsRule) ∈ envelopeRules := by simp [envelopeRules]
    rw [capEnvelope_eq, get_reviseAll (by decide) hmem rfl]
    cases htags : envelope.get "tags" with
    | obj tags => exact absurd ⟨tags, htags⟩ hobj
    | _ => exact iff_of_true rfl fun _ => Json.noConfusion

theorem meetsSpec_capEnvelope : MeetsSpec envelope (capEnvelope envelope) ↔
    ∀ tags, envelope.get "tags" = .obj tags → TagsAgree tags := by
  rw [← tagsKept_capEnvelope]
  have hget (key : String) (rule : Rule) (hmem : (py key, rule) ∈ envelopeRules)
      (hnull : rule .null = none) : (capEnvelope envelope).get key =
        (rule (envelope.get key)).getD (envelope.get key) := by
    rw [capEnvelope_eq]
    exact get_reviseAll (by decide) hmem hnull envelope
  refine ⟨MeetsSpec.tags, fun htags => ⟨withinLimits_capEnvelope envelope, ?_, ?_, htags,
    ?_, ?_, fun k hk => capEnvelope_lookup envelope hk⟩⟩
  · rw [capEnvelope_eq]
    exact keys_reviseAll envelope _
  · rw [hget "message" (truncateRule messageMax) (by simp [envelopeRules]) rfl]
    exact truncated_getD (by decide) _
  · rw [hget "breadcrumbs" breadcrumbsRule (by simp [envelopeRules]) rfl]
    exact breadcrumbsKept_getD _
  · rw [hget "exception" exceptionRule (by simp [envelopeRules]) rfl]
    exact chainKept_getD _

/-- The normaliser returns what its specification asks for, and returns it again when it is given
it, exactly for the envelopes that can be copied and have no contradicting tags. -/
theorem normalization_correct_iff (rt : Runtime) :
    (∃ out, normalizeEnvelope rt envelope = .ok out ∧ MeetsSpec envelope out ∧
      normalizeEnvelope rt out = .ok out) ↔
      Copyable rt envelope ∧ ∀ tags, envelope.get "tags" = .obj tags → TagsAgree tags := by
  rw [← meetsSpec_capEnvelope]
  simp only [normalizeEnvelope_ok_iff]
  constructor
  · rintro ⟨_, ⟨hcopy, rfl⟩, hspec, -⟩
    exact ⟨hcopy, hspec⟩
  · rintro ⟨hcopy, hspec⟩
    exact ⟨_, ⟨hcopy, rfl⟩, hspec, copyable_capEnvelope hcopy,
      (capEnvelope_capEnvelope envelope).symm⟩

/-- A tag within all limits, and another whose key is cut off to the key of the first. -/
def shadowedTags : Dict :=
  [(List.replicate 29 (CodePoint.ofNat 0x61) ++ truncationMarker, .str (py "1")),
    (List.replicate 33 (CodePoint.ofNat 0x61), .str (py "2"))]

/-- The value of the first is replaced by that of the second. -/
theorem tag_within_limits_overwritten : Copyable sampleRuntime [(py "tags", .obj shadowedTags)] ∧
    ¬ ∃ out, normalizeEnvelope sampleRuntime [(py "tags", .obj shadowedTags)] = .ok out ∧
      MeetsSpec [(py "tags", .obj shadowedTags)] out ∧
      normalizeEnvelope sampleRuntime out = .ok out := by
  refine ⟨by decide +kernel, ?_⟩
  rintro ⟨out, hout, hspec, -⟩
  obtain ⟨-, rfl⟩ := normalizeEnvelope_ok_iff.mp hout
  have hagree := (meetsSpec_capEnvelope _).mp hspec shadowedTags rfl
  have hvalues := hagree _ List.mem_cons_self _ (List.mem_cons_of_mem _ List.mem_cons_self)
    (by decide)
  have hstrings : py "1" = py "2" := Json.str.inj hvalues
  exact absurd hstrings (by decide)

end Envelope

end Crashlens
