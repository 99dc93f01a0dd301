import Crashlens.CauseChain
import Crashlens.Grouping

/-!
# Library frames beside application frames

The fingerprint hashes the last in-app frames where there are any, and it is taken of the last
frames that normalisation keeps. Library frames in front of the crash push application frames out of
what is kept: then fewer of them are hashed, or none, and library frames in their place.
-/

namespace Crashlens

open Assoc

/-! ## The frames of the root cause -/

section Frames

def isAppFrame : Json → Bool
  | .obj frame => (Dict.getD frame "in_app" (.bool true)).truthy
  | _ => false

def rootException (envelope : Dict) : Dict :=
  match envelope.get "exception" with
  | .obj exception => decidingException exception
  | _ => []

def stackFrames (envelope : Dict) : List Json := frameList (rootException envelope)

def keptAppFrames (envelope : Dict) : List Json :=
  (lastN maxFrames (stackFrames envelope)).filter isAppFrame

/-- Two envelopes whose root causes have the same type and the same application frames in the same
order, and whatever other frames before, between and after them. -/
structure SameApplication (e₁ e₂ : Dict) : Prop where
  platform : e₁.get "platform" = e₂.get "platform"
  first : ∃ exception, e₁.get "exception" = .obj exception
  second : ∃ exception, e₂.get "exception" = .obj exception
  type : (rootException e₁).get "type" = (rootException e₂).get "type"
  frames : (stackFrames e₁).filter isAppFrame = (stackFrames e₂).filter isAppFrame
  app : (stackFrames e₁).filter isAppFrame ≠ []

def Json.isObj : Json → Bool
  | .obj _ => true
  | _ => false

/-- What the fingerprint reads of a frame once it is normalised. -/
def frameView (frame : Json) : View :=
  match normalizeFrame frame with
  | .obj frame => viewOf frame
  | _ => ⟨.null, .null, false⟩

theorem frameView_inApp (frame : Json) : (frameView frame).inApp = isAppFrame frame := by
  cases frame with
  | obj frame =>
      have hkeep : (reviseAll frameRules frame).lookup (py "in_app") = frame.lookup (py "in_app") :=
        lookup_reviseAll_ne _ _ (by decide)
      rw [frameView, normalizeFrame_obj]
      dsimp only [viewOf, isAppFrame]
      unfold Dict.getD
      rw [hkeep]
  | _ => rfl

theorem views_normalizeFrame (frames : List Json) :
    ((frames.map normalizeFrame).filterMap asDict).map viewOf =
      (frames.filter Json.isObj).map frameView := by
  induction frames with
  | nil => rfl
  | cons frame frames ih =>
      cases frame with
      | obj frame =>
          rw [List.filter_cons_of_pos (by rfl), List.map_cons, List.map_cons, ← ih, frameView,
            normalizeFrame_obj]
          rfl
      | _ => exact ih

theorem filter_inApp_views (frames : List Json) :
    ((frames.filter Json.isObj).map frameView).filter View.inApp =
      (frames.filter isAppFrame).map frameView := by
  have hboth (frame : Json) :
      ((frameView frame).inApp && frame.isObj) = isAppFrame frame := by
    rw [frameView_inApp]
    cases frame with
    | obj frame => exact Bool.and_true _
    | _ => rfl
  rw [List.filter_map, List.filter_filter]
  simp only [Function.comp_apply, hboth]

/-- What is hashed of the frames of an envelope. -/
def hashedFrameViews (envelope : Dict) : List View :=
  selectLast View.inApp
    (((lastN maxFrames (stackFrames envelope)).filter Json.isObj).map frameView)

theorem rootFrames_of_ne_nil {d : Dict} (h : frameList d ≠ []) :
    rootFrames d = .ok (frameList d) := by
  by_cases hlist : ∃ (stacktrace : Dict) (frames : List Json),
      d.get "stacktrace" = .obj stacktrace ∧ stacktrace.get "frames" = .arr frames
  · obtain ⟨stacktrace, frames, hst, hframes⟩ := hlist
    rw [frameList_of_list hst hframes, rootFrames_of_list hst hframes]
  · exact absurd (frameList_of_no_list fun stacktrace frames hst hframes =>
      hlist ⟨stacktrace, frames, hst, hframes⟩) h

theorem lastN_ne_nil {α : Type} {n : ℕ} {xs : List α} (hn : 0 < n) (h : xs ≠ []) :
    lastN n xs ≠ [] := by
  have hpos := List.length_pos_iff.mpr h
  rw [← List.length_pos_iff, lastN, List.length_drop]
  omega

theorem fingerprintSignature_frames (rt : Runtime) {envelope exception : Dict}
    (hexc : envelope.get "exception" = .obj exception) (h : stackFrames envelope ≠ []) :
    fingerprintSignature rt (capEnvelope envelope) =
      .ok (frameSignature (envelope.get "platform") ((rootException envelope).get "type")
        (hashedFrameViews envelope)) := by
  have hroot : rootException envelope = decidingException exception := by
    rw [rootException, hexc]
  unfold hashedFrameViews
  unfold stackFrames at h ⊢
  rw [hroot] at h ⊢
  have hcapped := frameList_capFrames (decidingException exception)
  have hframes : frameList (capFrames (decidingException exception)) ≠ [] := by
    rw [hcapped, ne_eq, List.map_eq_nil_iff]
    exact lastN_ne_nil (by decide) h
  have htype : (capFrames (decidingException exception)).get "type" =
      (decidingException exception).get "type" := by
    rw [capFrames_eq]
    exact get_revise_ne _ (by decide)
  rw [fingerprintSignature_normalized rt hexc, rootSignature, rootFrames_of_ne_nil hframes]
  simp only [bind, Except.bind, pure, Except.pure]
  rw [exceptionSignature_eq_frameSignature, htype, hcapped, views_normalizeFrame]

end Frames

/-! ## Two envelopes of one application -/

section TwoEnvelopes

variable {e₁ e₂ : Dict}

theorem lastN_of_suffix {α : Type} {xs ys : List α} (h : ys <:+ xs) (n : ℕ) :
    lastN n ys = lastN (min n ys.length) xs := by
  obtain ⟨before, rfl⟩ := h
  have hdrop : (before ++ ys).length - min n ys.length =
      before.length + (ys.length - n) := by
    rw [List.length_append]
    omega
  have hbefore : before.drop (before.length + (ys.length - n)) = [] :=
    List.drop_eq_nil_of_le (Nat.le_add_right _ _)
  rw [lastN, lastN, hdrop, List.drop_append, hbefore, Nat.add_sub_cancel_left, List.nil_append]

theorem length_lastN {α : Type} {n : ℕ} {xs : List α} (h : n ≤ xs.length) :
    (lastN n xs).length = n := by
  rw [lastN, List.length_drop]
  omega

theorem keptAppFrames_suffix (envelope : Dict) :
    keptAppFrames envelope <:+ (stackFrames envelope).filter isAppFrame :=
  (List.drop_suffix _ _).filter isAppFrame

/-- With application frames among what is kept, the last of all application frames are hashed. -/
theorem hashedFrameViews_of_app {envelope : Dict} (h : keptAppFrames envelope ≠ []) :
    hashedFrameViews envelope =
      (lastN (min fingerprintFrameLimit (keptAppFrames envelope).length)
        ((stackFrames envelope).filter isAppFrame)).map frameView := by
  have hempty : ((keptAppFrames envelope).map frameView).isEmpty = false := by
    rw [List.isEmpty_eq_false_iff, ne_eq, List.map_eq_nil_iff]
    exact h
  rw [hashedFrameViews, selectLast, filter_inApp_views, ← keptAppFrames, hempty,
    if_neg Bool.false_ne_true, lastN_map, lastN_of_suffix (keptAppFrames_suffix envelope)]

variable (rt : Runtime)

def hashedFrameTexts (envelope : Dict) : List PyStr :=
  (hashedFrameViews envelope).map (View.text rt)

/-- Both keep application frames, and as many of them that count. -/
def AppFramesKept (e₁ e₂ : Dict) : Prop :=
  keptAppFrames e₁ ≠ [] ∧ keptAppFrames e₂ ≠ [] ∧
    min fingerprintFrameLimit (keptAppFrames e₁).length =
      min fingerprintFrameLimit (keptAppFrames e₂).length

/-- Where one keeps no application frame, the library frames that are hashed instead have the texts
of what is hashed of the other. -/
def LibraryFramesAgree (e₁ e₂ : Dict) : Prop :=
  (keptAppFrames e₁ = [] ∨ keptAppFrames e₂ = []) ∧ hashedFrameTexts rt e₁ = hashedFrameTexts rt e₂

/-- No lone surrogate is hashed. -/
structure FramesEncodable (envelope : Dict) : Prop where
  platform : (rt.dumps (envelope.get "platform")).Encodable
  type : (rt.dumps ((rootException envelope).get "type")).Encodable
  texts : ∀ text ∈ hashedFrameTexts rt envelope, PyStr.Encodable text

variable {rt}

theorem hashedFrameTexts_of_kept (h : SameApplication e₁ e₂) (hkept : AppFramesKept e₁ e₂) :
    hashedFrameTexts rt e₁ = hashedFrameTexts rt e₂ := by
  obtain ⟨h₁, h₂, hcount⟩ := hkept
  rw [hashedFrameTexts, hashedFrameTexts, hashedFrameViews_of_app h₁, hashedFrameViews_of_app h₂,
    hcount, h.frames]

theorem hashedFrameTexts_eq_iff (h : SameApplication e₁ e₂) :
    hashedFrameTexts rt e₁ = hashedFrameTexts rt e₂ ↔
      AppFramesKept e₁ e₂ ∨ LibraryFramesAgree rt e₁ e₂ := by
  constructor
  · intro htexts
    by_cases hlibrary : keptAppFrames e₁ = [] ∨ keptAppFrames e₂ = []
    · exact .inr ⟨hlibrary, htexts⟩
    · obtain ⟨h₁, h₂⟩ := not_or.mp hlibrary
      refine .inl ⟨h₁, h₂, ?_⟩
      have hlength {e : Dict} (he : keptAppFrames e ≠ []) : (hashedFrameTexts rt e).length =
          min fingerprintFrameLimit (keptAppFrames e).length := by
        have hle := (keptAppFrames_suffix e).length_le
        rw [hashedFrameTexts, hashedFrameViews_of_app he, List.length_map, List.length_map,
          length_lastN (by omega)]
      rw [← hlength h₁, ← hlength h₂, htexts]
  · rintro (hkept | ⟨-, htexts⟩)
    · exact hashedFrameTexts_of_kept h hkept
    · exact htexts

/-! ## Their fingerprints -/

theorem stackFrames_ne_nil {envelope : Dict}
    (h : (stackFrames envelope).filter isAppFrame ≠ []) : stackFrames envelope ≠ [] := by
  intro hnil
  rw [hnil] at h
  exact h rfl

/-- The text whose digest is the fingerprint. -/
def signatureText (rt : Runtime) (envelope : Dict) : PyStr :=
  rt.dumps (frameSignature (envelope.get "platform") ((rootException envelope).get "type")
    (hashedFrameViews envelope))

theorem computeFingerprint_frames {envelope : Dict}
    (hexc : ∃ exception, envelope.get "exception" = .obj exception)
    (h : (stackFrames envelope).filter isAppFrame ≠ []) :
    computeFingerprint rt (capEnvelope envelope) =
      (utf8Encode (signatureText rt envelope)).map rt.hexdigest := by
  obtain ⟨exception, hexc⟩ := hexc
  rw [computeFingerprint, fingerprintSignature_frames rt hexc (stackFrames_ne_nil h)]
  simp only [bind, Except.bind, pure, Except.pure, signatureText]
  cases utf8Encode (rt.dumps (frameSignature (envelope.get "platform")
    ((rootException envelope).get "type") (hashedFrameViews envelope))) with
  | _ => rfl

theorem signatureText_encodable_iff (envelope : Dict) :
    (signatureText rt envelope).Encodable ↔ FramesEncodable rt envelope := by
  rw [signatureText, dumps_frameSignature]
  simp only [encodable_append_iff, joinComma_encodable_iff]
  constructor
  · rintro ⟨⟨-, htexts⟩, ⟨⟨⟨-, hplatform⟩, -⟩, htype⟩, -⟩
    exact ⟨hplatform, htype, htexts⟩
  · rintro ⟨hplatform, htype, htexts⟩
    exact ⟨⟨py_encodable _, htexts⟩, ⟨⟨⟨py_encodable _, hplatform⟩, py_encodable _⟩, htype⟩,
      py_encodable _⟩

theorem signatureText_of_texts (h : SameApplication e₁ e₂)
    (htexts : hashedFrameTexts rt e₁ = hashedFrameTexts rt e₂) :
    signatureText rt e₁ = signatureText rt e₂ := by
  unfold hashedFrameTexts at htexts
  unfold signatureText
  rw [h.platform, h.type, dumps_frameSignature, dumps_frameSignature, htexts]

theorem texts_of_signatureText (hrt : rt.FloatsPlain) (h : SameApplication e₁ e₂)
    (htext : signatureText rt e₁ = signatureText rt e₂) :
    hashedFrameTexts rt e₁ = hashedFrameTexts rt e₂ := by
  unfold signatureText at htext
  rw [h.platform, h.type] at htext
  exact texts_of_dumps hrt htext

/-- SHA-256 tells the signatures of the two apart. -/
def SignaturesApart (rt : Runtime) (e₁ e₂ : Dict) : Prop :=
  ∀ x y, utf8Encode (signatureText rt e₁) = .ok x → utf8Encode (signatureText rt e₂) = .ok y →
    rt.sha256 x = rt.sha256 y → x = y

theorem utf8Encode_error {s : PyStr} {e : PyError} (h : utf8Encode s = .error e) :
    e = .unicodeEncodeError := by
  induction s with
  | nil => cases h
  | cons c cs ih =>
      rw [utf8Encode] at h
      split_ifs at h
      · cases h
        rfl
      · cases hrest : utf8Encode cs with
        | error e' =>
            rw [hrest] at h
            cases h
            exact ih hrest
        | ok rest =>
            rw [hrest] at h
            simp only [bind, Except.bind, pure, Except.pure] at h
            split_ifs at h

theorem map_hexdigest_eq_iff {s t : PyStr}
    (hapart : ∀ x y, utf8Encode s = .ok x → utf8Encode t = .ok y →
      rt.sha256 x = rt.sha256 y → x = y) :
    (utf8Encode s).map rt.hexdigest = (utf8Encode t).map rt.hexdigest ↔
      s = t ∨ ¬ s.Encodable ∧ ¬ t.Encodable := by
  rw [← utf8Encode_isOk_iff, ← utf8Encode_isOk_iff]
  cases hs : utf8Encode s with
  | error e =>
      obtain rfl := utf8Encode_error hs
      cases ht : utf8Encode t with
      | error e' =>
          obtain rfl := utf8Encode_error ht
          exact iff_of_true rfl (.inr ⟨fun ⟨_, h⟩ => (nomatch h), fun ⟨_, h⟩ => (nomatch h)⟩)
      | ok y =>
          refine iff_of_false (fun h => nomatch h) ?_
          rintro (rfl | ⟨-, hno⟩)
          · cases hs.symm.trans ht
          · exact hno ⟨y, rfl⟩
  | ok x =>
      cases ht : utf8Encode t with
      | error e =>
          refine iff_of_false (fun h => nomatch h) ?_
          rintro (rfl | ⟨hno, -⟩)
          · cases hs.symm.trans ht
          · exact hno ⟨x, rfl⟩
      | ok y =>
          constructor
          · intro h
            have hdigest := hexdigest_injective (Except.ok.inj h)
            obtain rfl := hapart x y hs ht hdigest
            exact .inl (utf8Encode_injective hs ht)
          · rintro (rfl | ⟨hno, -⟩)
            · cases hs.symm.trans ht
              rfl
            · exact absurd ⟨x, rfl⟩ hno

/-- No fingerprint can be had of the envelope: it cannot be copied, or what is hashed of it has a
lone surrogate. -/
def Unhashable (rt : Runtime) (envelope : Dict) : Prop :=
  ¬ Copyable rt envelope ∨ ¬ FramesEncodable rt envelope

/-- What it takes for the two to be grouped together. -/
def FramesGroup (rt : Runtime) (e₁ e₂ : Dict) : Prop :=
  (Copyable rt e₁ ∧ Copyable rt e₂ ∧ (AppFramesKept e₁ e₂ ∨ LibraryFramesAgree rt e₁ e₂)) ∨
    (Unhashable rt e₁ ∧ Unhashable rt e₂)

theorem groupOf_frames {envelope : Dict}
    (hexc : ∃ exception, envelope.get "exception" = .obj exception)
    (h : (stackFrames envelope).filter isAppFrame ≠ []) : groupOf rt envelope =
      if Copyable rt envelope then (utf8Encode (signatureText rt envelope)).map rt.hexdigest
      else .error .recursionError := by
  rw [groupOf_eq, computeFingerprint_frames hexc h]

theorem groupOf_isNone_iff (rt : Runtime) {envelope : Dict}
    (hexc : ∃ exception, envelope.get "exception" = .obj exception)
    (h : (stackFrames envelope).filter isAppFrame ≠ []) :
    (groupOf rt envelope).toOption = none ↔ Unhashable rt envelope := by
  rw [groupOf_frames hexc h, Unhashable, ← signatureText_encodable_iff, ← utf8Encode_isOk_iff]
  split_ifs with hcopy
  · cases utf8Encode (signatureText rt envelope) with
    | ok x => simp [hcopy, Except.map, Except.toOption]
    | error e => simp [hcopy, Except.map, Except.toOption]
  · simp [hcopy, Except.toOption]

/-- Of two envelopes that can be copied the hashed texts decide, where SHA-256 tells them apart. -/
theorem groupOf_eq_iff (h : SameApplication e₁ e₂) (hcopy₁ : Copyable rt e₁)
    (hcopy₂ : Copyable rt e₂) (hrt : rt.FloatsPlain) (hapart : SignaturesApart rt e₁ e₂) :
    groupOf rt e₁ = groupOf rt e₂ ↔ hashedFrameTexts rt e₁ = hashedFrameTexts rt e₂ ∨
      ¬ FramesEncodable rt e₁ ∧ ¬ FramesEncodable rt e₂ := by
  have happ : (stackFrames e₂).filter isAppFrame ≠ [] := h.frames ▸ h.app
  rw [groupOf_frames h.first h.app, groupOf_frames h.second happ, if_pos hcopy₁, if_pos hcopy₂,
    map_hexdigest_eq_iff hapart, signatureText_encodable_iff, signatureText_encodable_iff]
  have htexts : signatureText rt e₁ = signatureText rt e₂ ↔
      hashedFrameTexts rt e₁ = hashedFrameTexts rt e₂ :=
    ⟨texts_of_signatureText hrt h, signatureText_of_texts h⟩
  rw [htexts]

/-- Library frames leave the fingerprint alone when both envelopes can be copied and normalisation
keeps as many of the application frames that count, and otherwise only when what is hashed instead
reads the same, or when neither has a fingerprint. -/
theorem library_frames_ignored_iff (rt : Runtime) (e₁ e₂ : Dict) (h : SameApplication e₁ e₂) :
    (FramesGroup rt e₁ e₂ → (groupOf rt e₁).toOption = (groupOf rt e₂).toOption) ∧
    (rt.FloatsPlain → SignaturesApart rt e₁ e₂ →
      ((groupOf rt e₁).toOption = (groupOf rt e₂).toOption ↔ FramesGroup rt e₁ e₂)) := by
  have happ : (stackFrames e₂).filter isAppFrame ≠ [] := h.frames ▸ h.app
  have hnone₁ := groupOf_isNone_iff rt h.first h.app
  have hnone₂ := groupOf_isNone_iff rt h.second happ
  have hsufficient (hg : FramesGroup rt e₁ e₂) :
      (groupOf rt e₁).toOption = (groupOf rt e₂).toOption := by
    rcases hg with ⟨hcopy₁, hcopy₂, htexts⟩ | ⟨hno₁, hno₂⟩
    · rw [groupOf_frames h.first h.app, groupOf_frames h.second happ, if_pos hcopy₁,
        if_pos hcopy₂, signatureText_of_texts h ((hashedFrameTexts_eq_iff h).mpr htexts)]
    · rw [hnone₁.mpr hno₁, hnone₂.mpr hno₂]
  refine ⟨hsufficient, fun hrt hapart => ⟨fun hsame => ?_, hsufficient⟩⟩
  by_cases hno : Unhashable rt e₁
  · exact .inr ⟨hno, hnone₂.mp (hsame ▸ hnone₁.mpr hno)⟩
  · have hno₂ : ¬ Unhashable rt e₂ := fun hno₂ => hno (hnone₁.mp (hsame ▸ hnone₂.mpr hno₂))
    have hdefined {e : Dict} (he : ¬ Unhashable rt e) :
        Copyable rt e ∧ FramesEncodable rt e := by
      rwa [Unhashable, not_or, not_not, not_not] at he
    obtain ⟨hcopy₁, hencodable⟩ := hdefined hno
    obtain ⟨hcopy₂, -⟩ := hdefined hno₂
    have hequal : groupOf rt e₁ = groupOf rt e₂ := by
      cases h₁ : groupOf rt e₁ with
      | error e => exact absurd (hnone₁.mp (by rw [h₁]; rfl)) hno
      | ok f =>
          cases h₂ : groupOf rt e₂ with
          | error e => exact absurd (hnone₂.mp (by rw [h₂]; rfl)) hno₂
          | ok g =>
              rw [h₁, h₂] at hsame
              exact congrArg Except.ok (Option.some.inj hsame)
    rcases (groupOf_eq_iff h hcopy₁ hcopy₂ hrt hapart).mp hequal with htexts | ⟨hlone, -⟩
    · exact .inl ⟨hcopy₁, hcopy₂, (hashedFrameTexts_eq_iff h).mp htexts⟩
    · exact absurd hencodable hlone

end TwoEnvelopes

section Examples

def appFrame : Json :=
  .obj [(py "filename", .str (py "app.py")), (py "function", .str (py "run")),
    (py "in_app", .bool true)]

def libraryFrame : Json :=
  .obj [(py "filename", .str (py "lib.py")), (py "function", .str (py "helper")),
    (py "in_app", .bool false)]

def framesEnvelope (frames : List Json) : Dict :=
  [(py "platform", .str (py "python")), (py "exception", .obj [(py "type", .str (py "E")),
    (py "stacktrace", .obj [(py "frames", .arr frames)])])]

/-- Python's runtime on the signatures of one application frame and of eight library frames. -/
def framesRuntime : Runtime :=
  { sampleRuntime with
    sha256 := fun data =>
      if ascii (py "\x7b\"frames\":[[\"app.py\",\"run\"]]," ++
          py "\"platform\":\"python\",\"type\":\"E\",\"v\":1\x7d") = data
        then 0xf14da3b75c21dcdc235bc1cf26c083e7fdd105b6f11e50508d80b4c2a3fcd704
      else if ascii (py "\x7b\"frames\":[" ++
          Runtime.joinComma (List.replicate 8 (py "[\"lib.py\",\"helper\"]")) ++
          py "],\"platform\":\"python\",\"type\":\"E\",\"v\":1\x7d") = data
        then 0xe7d7778c5eac25b8d9f2fe3a450086835d8f24f21baab46211eb974f9bf6b900
      else 0 }

theorem stackFrames_framesEnvelope (frames : List Json) :
    stackFrames (framesEnvelope frames) = frames ∧
      (rootException (framesEnvelope frames)).get "type" = .str (py "E") := by
  have hroot : rootException (framesEnvelope frames) = [(py "type", .str (py "E")),
      (py "stacktrace", .obj [(py "frames", .arr frames)])] :=
    (walkToRootCause_deciding _).symm
  rw [stackFrames, hroot]
  exact ⟨rfl, rfl⟩

theorem sameApplication_framesEnvelope {frames frames' : List Json}
    (h : frames.filter isAppFrame = frames'.filter isAppFrame)
    (happ : frames.filter isAppFrame ≠ []) :
    SameApplication (framesEnvelope frames) (framesEnvelope frames') where
  platform := rfl
  first := ⟨_, rfl⟩
  second := ⟨_, rfl⟩
  type := by rw [(stackFrames_framesEnvelope _).2, (stackFrames_framesEnvelope _).2]
  frames := by rw [(stackFrames_framesEnvelope _).1, (stackFrames_framesEnvelope _).1, h]
  app := by rwa [(stackFrames_framesEnvelope _).1]

/-- One library frame before the application frame, or one before and one after it. -/
theorem few_library_frames_ignored :
    (groupOf framesRuntime (framesEnvelope [libraryFrame, appFrame])).toOption =
      (groupOf framesRuntime
        (framesEnvelope [libraryFrame, appFrame, libraryFrame])).toOption := by
  have hkept {frames : List Json}
      (h : (lastN maxFrames frames).filter isAppFrame = [appFrame]) :
      keptAppFrames (framesEnvelope frames) = [appFrame] := by
    rw [keptAppFrames, (stackFrames_framesEnvelope frames).1, h]
  have h₁ := hkept (rfl : (lastN maxFrames [libraryFrame, appFrame]).filter isAppFrame = _)
  have h₂ := hkept
    (rfl : (lastN maxFrames [libraryFrame, appFrame, libraryFrame]).filter isAppFrame = _)
  have hgroup : AppFramesKept (framesEnvelope [libraryFrame, appFrame])
      (framesEnvelope [libraryFrame, appFrame, libraryFrame]) := by
    unfold AppFramesKept
    rw [h₁, h₂]
    exact ⟨List.cons_ne_nil _ _, List.cons_ne_nil _ _, rfl⟩
  have hsame : SameApplication (framesEnvelope [libraryFrame, appFrame])
      (framesEnvelope [libraryFrame, appFrame, libraryFrame]) :=
    sameApplication_framesEnvelope rfl (List.cons_ne_nil appFrame [])
  exact (library_frames_ignored_iff framesRuntime _ _ hsame).1
    (.inl ⟨by decide +kernel, by decide +kernel, .inl hgroup⟩)

/-- After 128 library frames the application frame is not kept. -/
theorem library_frames_replace_app_frame :
    SameApplication (framesEnvelope [appFrame])
        (framesEnvelope (appFrame :: List.replicate 128 libraryFrame)) ∧
      (groupOf framesRuntime (framesEnvelope [appFrame])).toOption ≠
        (groupOf framesRuntime
          (framesEnvelope (appFrame :: List.replicate 128 libraryFrame))).toOption := by
  have hnone : (List.replicate 128 libraryFrame).filter isAppFrame = [] := by
    rw [List.filter_replicate]
    rfl
  refine ⟨sameApplication_framesEnvelope ?_ (List.cons_ne_nil appFrame []), ?_⟩
  · rw [List.filter_cons_of_pos (by rfl), List.filter_cons_of_pos (by rfl), hnone]
    rfl
  · decide +kernel

end Examples

end Crashlens
