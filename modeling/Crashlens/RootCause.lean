import Crashlens.Normalize

/-!
# The root cause through normalisation and symbolication

Both passes rewrite the exception chain link by link and a stack trace only where its frames are a
list. The root cause of what they return is the root cause of the input, cut off at the maximal
depth, and its frames can be iterated over exactly when they could be before.
-/

namespace Crashlens

/-- The frames of the exception can be iterated over. -/
def FramesOk (exception : Dict) : Prop := ∃ frames, rootFrames exception = .ok frames

section Chain

variable {d : Dict}

theorem walkToRootCause_cause {cause : Dict} (n : ℕ) (h : d.get "cause" = .obj cause) :
    walkToRootCause (n + 1) d = walkToRootCause n cause := by
  rw [walkToRootCause, h]

theorem walkToRootCause_root (n : ℕ) (h : ∀ cause, d.get "cause" ≠ .obj cause) :
    walkToRootCause n d = d := by
  cases n with
  | zero => rfl
  | succ n =>
      rw [walkToRootCause]
      cases hget : d.get "cause" with
      | obj cause => exact absurd hget (h cause)
      | _ => rfl

theorem get_pop_cause_ne (d cause : Dict) : (d.pop "cause").get "cause" ≠ .obj cause := by
  rw [Dict.get_pop_self]
  exact Json.noConfusion

/-- Only the stack trace decides. -/
theorem framesOk_congr {d' : Dict} (h : d'.get "stacktrace" = d.get "stacktrace") :
    FramesOk d' ↔ FramesOk d := by
  unfold FramesOk rootFrames
  rw [h]

theorem rootFrames_of_list {stacktrace : Dict} {frames : List Json}
    (hst : d.get "stacktrace" = .obj stacktrace) (hframes : stacktrace.get "frames" = .arr frames) :
    rootFrames d = .ok frames := by
  have hlist : stacktrace.getD "frames" (.arr []) = .arr frames := by
    unfold Dict.get at hframes
    unfold Dict.getD
    cases hlookup : stacktrace.lookup (py "frames") with
    | none =>
        rw [hlookup] at hframes
        cases hframes
    | some v =>
        rw [hlookup] at hframes
        exact hframes
  rw [rootFrames, hst]
  dsimp only
  rw [hlist]
  rfl

/-- A list of frames can be iterated over. -/
theorem framesOk_of_list {stacktrace : Dict} {frames : List Json}
    (hst : d.get "stacktrace" = .obj stacktrace) (hframes : stacktrace.get "frames" = .arr frames) :
    FramesOk d := ⟨frames, rootFrames_of_list hst hframes⟩

theorem framesOk_set_frames {stacktrace : Dict} (frames : List Json) :
    FramesOk (d.set "stacktrace" (.obj (stacktrace.set "frames" (.arr frames)))) :=
  framesOk_of_list (Dict.get_set_self d _ _) (Dict.get_set_self stacktrace _ _)

theorem framesOk_capFrames : FramesOk (capFrames d) ↔ FramesOk d := by
  unfold capFrames
  split
  · next stacktrace hst =>
      split
      · next frames hframes =>
          exact ⟨fun _ => framesOk_of_list hst hframes, fun _ => framesOk_set_frames _⟩
      · exact Iff.rfl
  · exact Iff.rfl

theorem normalizeException_cause {cause : Dict} (left : ℕ) (h : d.get "cause" = .obj cause) :
    normalizeException (left + 1) d =
      (capFrames d).set "cause" (.obj (normalizeException left cause)) := by
  rw [normalizeException, h]

/-- The last exception of a chain, or the last one that is kept. -/
theorem normalizeException_last {left : ℕ}
    (h : left = 0 ∨ ∀ cause, d.get "cause" ≠ .obj cause) :
    normalizeException left d = (capFrames d).pop "cause" := by
  cases left with
  | zero => rfl
  | succ left =>
      obtain hzero | hroot := h
      · cases hzero
      · rw [normalizeException]
        cases hcause : d.get "cause" with
        | obj cause => exact absurd hcause (hroot cause)
        | _ => rfl

/-- The root cause found in a normalised chain is the exception of that depth with its frames
capped. -/
theorem walkToRootCause_normalized {left n : ℕ} (hn : left ≤ n) (d : Dict) {key : String}
    (hkey : py key ≠ py "cause") :
    (walkToRootCause n (normalizeException left d)).get key =
      (capFrames (walkToRootCause left d)).get key := by
  have hlast (n : ℕ) (d : Dict) :
      (walkToRootCause n ((capFrames d).pop "cause")).get key = (capFrames d).get key := by
    rw [walkToRootCause_root n (get_pop_cause_ne _), Dict.get_pop_ne _ hkey]
  induction left generalizing n d with
  | zero => exact hlast n d
  | succ left ih =>
      by_cases hcause : ∃ cause, d.get "cause" = .obj cause
      · obtain ⟨cause, hcause⟩ := hcause
        obtain ⟨m, rfl⟩ : ∃ m, n = m + 1 := ⟨n - 1, by omega⟩
        rw [normalizeException_cause left hcause, walkToRootCause_cause m (Dict.get_set_self ..),
          walkToRootCause_cause left hcause]
        exact ih (by omega) cause
      · have hroot (cause : Dict) : d.get "cause" ≠ .obj cause := fun h => hcause ⟨cause, h⟩
        rw [normalizeException_last (.inr hroot), walkToRootCause_root _ hroot]
        exact hlast n d

theorem framesOk_normalized {left n : ℕ} (hn : left ≤ n) (d : Dict) :
    FramesOk (walkToRootCause n (normalizeException left d)) ↔
      FramesOk (walkToRootCause left d) := by
  have hst : py "stacktrace" ≠ py "cause" := by decide
  exact (framesOk_congr (walkToRootCause_normalized hn d hst)).trans framesOk_capFrames

end Chain

section Symbolication

variable {rt : Runtime} {files : Filesystem} {orgId projectId release : PyStr}

/-- What symbolication makes of a stack trace: a list of frames is rewritten, and nothing else. -/
theorem symbolicateStacktrace_cases {d out : Dict}
    (h : symbolicateStacktrace rt files orgId projectId release d = .ok out) :
    (∃ (stacktrace : Dict) (frames : List Json) (dir : Path) (frames' : List Json),
        d.get "stacktrace" = .obj stacktrace ∧ stacktrace.get "frames" = .arr frames ∧
        releaseMapsDir orgId projectId release = .ok dir ∧
        frames.mapM (symbolicateStackFrame rt files dir) = .ok frames' ∧
        out = d.set "stacktrace" (.obj (stacktrace.set "frames" (.arr frames')))) ∨
      (∀ (stacktrace : Dict) (frames : List Json), d.get "stacktrace" = .obj stacktrace →
        stacktrace.get "frames" ≠ .arr frames) ∧ out = d := by
  unfold symbolicateStacktrace at h
  split at h
  · next stacktrace hst =>
      split at h
      · next frames hframes =>
          simp only [bind, Except.bind, pure, Except.pure] at h
          split at h
          · cases h
          · next dir hdir =>
              split at h
              · cases h
              · next frames' hframes' =>
                  cases h
                  exact .inl ⟨stacktrace, frames, dir, frames', hst, hframes, hdir, hframes', rfl⟩
      · next hno =>
          cases h
          refine .inr ⟨fun st frames hst' => ?_, rfl⟩
          cases hst.symm.trans hst'
          exact hno frames
  · next hno =>
      cases h
      exact .inr ⟨fun st _ hst => absurd hst (hno st), rfl⟩

theorem framesOk_symbolicateStacktrace {d out : Dict}
    (h : symbolicateStacktrace rt files orgId projectId release d = .ok out) :
    FramesOk out ↔ FramesOk d := by
  obtain ⟨stacktrace, frames, dir, frames', hst, hframes, -, -, rfl⟩ | ⟨-, rfl⟩ :=
    symbolicateStacktrace_cases h
  · exact ⟨fun _ => framesOk_of_list hst hframes, fun _ => framesOk_set_frames _⟩
  · exact Iff.rfl

theorem symbolicateStacktrace_get {d out : Dict} {key : String} (hkey : py key ≠ py "stacktrace")
    (h : symbolicateStacktrace rt files orgId projectId release d = .ok out) :
    out.get key = d.get key := by
  obtain ⟨stacktrace, frames, dir, frames', -, -, -, -, rfl⟩ | ⟨-, rfl⟩ :=
    symbolicateStacktrace_cases h
  · exact Dict.get_set_ne d hkey _
  · rfl

/-- What symbolication makes of an exception: its stack trace and its cause are symbolicated. -/
theorem symbolicateException_cases {d out : Dict}
    (h : symbolicateException rt files orgId projectId release d = .ok out) :
    ∃ top, symbolicateStacktrace rt files orgId projectId release d = .ok top ∧
      ((∃ cause cause', d.get "cause" = .obj cause ∧ out = top.set "cause" (.obj cause') ∧
          symbolicateException rt files orgId projectId release cause = .ok cause') ∨
        (∀ cause, d.get "cause" ≠ .obj cause) ∧ out = top) := by
  rw [symbolicateException] at h
  simp only [bind, Except.bind, pure, Except.pure] at h
  split at h
  · cases h
  · next top htop =>
      refine ⟨top, htop, ?_⟩
      split at h
      · next cause hget =>
          split at h
          · cases h
          · next cause' hrec =>
              cases h
              exact .inl ⟨cause, cause', hget, rfl, hrec⟩
      · next hno =>
          cases h
          exact .inr ⟨hno, rfl⟩

/-- The root cause of a symbolicated exception is the symbolicated root cause, up to the link to a
cause beyond the depth walked. -/
theorem walkToRootCause_symbolicated {d out : Dict} (n : ℕ)
    (h : symbolicateException rt files orgId projectId release d = .ok out) :
    ∃ top, symbolicateStacktrace rt files orgId projectId release (walkToRootCause n d) = .ok top ∧
      ∀ key, py key ≠ py "cause" → (walkToRootCause n out).get key = top.get key := by
  have hcause : py "cause" ≠ py "stacktrace" := by decide
  induction n generalizing d out with
  | zero =>
      obtain ⟨top, htop, ⟨_, _, -, rfl, -⟩ | ⟨-, rfl⟩⟩ := symbolicateException_cases h
      · exact ⟨top, htop, fun key hkey => Dict.get_set_ne _ hkey _⟩
      · exact ⟨out, htop, fun _ _ => rfl⟩
  | succ n ih =>
      obtain ⟨top, htop, ⟨cause, cause', hget, rfl, hrec⟩ | ⟨hno, rfl⟩⟩ :=
        symbolicateException_cases h
      · rw [walkToRootCause_cause n hget, walkToRootCause_cause n (Dict.get_set_self ..)]
        exact ih hrec
      · have hout : out.get "cause" = d.get "cause" := symbolicateStacktrace_get hcause htop
        rw [walkToRootCause_root _ hno, walkToRootCause_root _ (hout ▸ hno)]
        exact ⟨out, htop, fun _ _ => rfl⟩

/-- Symbolication keeps the chain of causes and whether its frames can be iterated over. -/
theorem framesOk_symbolicated {d out : Dict} (n : ℕ)
    (h : symbolicateException rt files orgId projectId release d = .ok out) :
    FramesOk (walkToRootCause n out) ↔ FramesOk (walkToRootCause n d) := by
  obtain ⟨top, htop, hget⟩ := walkToRootCause_symbolicated n h
  have hst : py "stacktrace" ≠ py "cause" := by decide
  exact (framesOk_congr (hget "stacktrace" hst)).trans (framesOk_symbolicateStacktrace htop)

end Symbolication

/-! ## The whole envelope -/

section Envelope

/-- The frames of the root cause of the exception, when there is one, can be iterated over. -/
def FramesIterable (normalized : Dict) : Prop :=
  ∀ exception, normalized.get "exception" = .obj exception →
    FramesOk (walkToRootCause maxCauseDepth exception)

/-- The root cause of the envelope as it came, at most four causes deep, has frames that can be
iterated over. -/
def RootFramesOk (envelope : Dict) : Prop :=
  ∀ exception, envelope.get "exception" = .obj exception →
    FramesOk (walkToRootCause (maxCauseDepth - 1) exception)

/-- The exception of a normalised envelope is the normalised exception. -/
theorem capEnvelope_exception (envelope : Dict) :
    (capEnvelope envelope).get "exception" =
      match envelope.get "exception" with
      | .obj exception => .obj (normalizeException (maxCauseDepth - 1) exception)
      | v => v := by
  have hbefore : (capBreadcrumbs (capTags (truncateField "message" messageMax envelope))).get
      "exception" = envelope.get "exception" := by
    unfold Dict.get
    rw [capBreadcrumbs_lookup _ (by decide), capTags_lookup _ (by decide),
      truncateField_lookup _ (by decide)]
  rw [capEnvelope, capException, hbefore]
  cases hexc : envelope.get "exception" with
  | obj exception => exact Dict.get_set_self _ _ _
  | _ => exact hbefore.trans hexc

/-- The exception of a symbolicated envelope is the symbolicated exception, or the one it had. -/
theorem symbolicateEnvelope_exception (rt : Runtime) (files : Filesystem) (envelope : Dict)
    (orgId projectId : PyStr) :
    (symbolicateEnvelope rt files envelope orgId projectId).get "exception" =
        envelope.get "exception" ∨
      ∃ release exception out, envelope.get "exception" = .obj exception ∧
        symbolicateException rt files orgId projectId release exception = .ok out ∧
        (symbolicateEnvelope rt files envelope orgId projectId).get "exception" = .obj out := by
  unfold symbolicateEnvelope
  split
  · next platform exception c release _ hexc _ =>
      split_ifs
      · split
        · next out hout =>
            exact .inr ⟨c :: release, exception, out, hexc, hout, Dict.get_set_self _ _ _⟩
        · exact .inl rfl
      · exact .inl rfl
  · exact .inl rfl

/-- The frames the fingerprint iterates over are those of the root cause as it came. -/
theorem framesIterable_symbolicated (rt : Runtime) (call : EventCall) :
    FramesIterable (symbolicated rt call) ↔ RootFramesOk call.envelope := by
  have hnormalized : FramesIterable (capEnvelope call.envelope) ↔
      RootFramesOk call.envelope := by
    unfold FramesIterable RootFramesOk
    rw [capEnvelope_exception]
    cases call.envelope.get "exception" with
    | obj exception =>
        have hdepth : maxCauseDepth - 1 ≤ maxCauseDepth := by decide
        have hwalk := framesOk_normalized hdepth exception
        constructor
        · rintro h e he
          cases he
          exact hwalk.mp (h _ rfl)
        · rintro h e he
          cases he
          exact hwalk.mpr (h exception rfl)
    | _ => simp
  rw [← hnormalized]
  unfold FramesIterable
  rcases symbolicateEnvelope_exception rt call.maps (capEnvelope call.envelope)
    (uuidStr call.orgId) (uuidStr call.projectId) with hsame | ⟨release, exc, out, hexc, hout, hget⟩
  · rw [symbolicated, hsame]
  · rw [symbolicated, hget, hexc]
    constructor
    · rintro h e he
      cases he
      exact (framesOk_symbolicated maxCauseDepth hout).mp (h out rfl)
    · rintro h e he
      cases he
      exact (framesOk_symbolicated maxCauseDepth hout).mpr (h exc rfl)

end Envelope

end Crashlens
