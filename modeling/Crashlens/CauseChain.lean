import Crashlens.NormalizeRules

/-!
# The chain of causes and the exception that decides grouping

Normalisation follows the causes down to a depth, and so does the walk to the root cause. What the
fingerprint hashes is the exception at that depth, its frames capped: nothing of the exceptions
around it, nor of the message or the level.
-/

namespace Crashlens

/-- The exceptions of a chain, the outermost first. -/
def causeChain (exception : Dict) : List Dict :=
  match h : exception.get "cause" with
  | .obj cause =>
    have := Dict.sizeOf_get_lt h
    exception :: causeChain cause
  | _ => [exception]
termination_by sizeOf exception

theorem causeChain_cause {d cause : Dict} (h : d.get "cause" = .obj cause) :
    causeChain d = d :: causeChain cause := by
  rw [causeChain]
  split
  · next c hc =>
      cases hc.symm.trans h
      rfl
  · next hno => exact absurd h (hno cause)

theorem causeChain_root {d : Dict} (h : ∀ cause, d.get "cause" ≠ .obj cause) :
    causeChain d = [d] := by
  rw [causeChain]
  split
  · next c hc => exact absurd hc (h c)
  · rfl

/-- The chain starts with the exception itself. -/
theorem causeChain_eq_cons (d : Dict) : ∃ causes, causeChain d = d :: causes := by
  by_cases hcause : ∃ cause, d.get "cause" = .obj cause
  · obtain ⟨cause, hcause⟩ := hcause
    exact ⟨_, causeChain_cause hcause⟩
  · exact ⟨[], causeChain_root fun cause h => hcause ⟨cause, h⟩⟩

theorem causeChain_ne_nil (d : Dict) : causeChain d ≠ [] := by
  obtain ⟨causes, hchain⟩ := causeChain_eq_cons d
  rw [hchain]
  exact List.cons_ne_nil _ _

theorem mem_causeChain_self (d : Dict) : d ∈ causeChain d := by
  obtain ⟨causes, hchain⟩ := causeChain_eq_cons d
  rw [hchain]
  exact List.mem_cons_self

theorem take_one_causeChain (d : Dict) : (causeChain d).take 1 = [d] := by
  obtain ⟨causes, hchain⟩ := causeChain_eq_cons d
  rw [hchain]
  rfl

/-- What holds of one exception and what it becomes, at the end of the chain and before it, holds
along the chain: as many exceptions are kept as are followed, and no further one. -/
theorem forall₂_normalizeException {R : Dict → Dict → Prop}
    (hlast : ∀ d, R d ((capFrames d).pop "cause"))
    (hlink : ∀ d cause out : Dict, d.get "cause" = .obj cause →
      R d ((capFrames d).set "cause" (.obj out)))
    (left : ℕ) (d : Dict) :
    List.Forall₂ R ((causeChain d).take (left + 1)) (causeChain (normalizeException left d)) := by
  have hend {left : ℕ} {d : Dict} (h : left = 0 ∨ ∀ cause, d.get "cause" ≠ .obj cause) :
      List.Forall₂ R [d] (causeChain (normalizeException left d)) := by
    rw [normalizeException_last h, causeChain_root (get_pop_cause_ne _)]
    exact .cons (hlast d) .nil
  induction left generalizing d with
  | zero =>
      rw [take_one_causeChain]
      exact hend (.inl rfl)
  | succ left ih =>
      by_cases hcause : ∃ cause, d.get "cause" = .obj cause
      · obtain ⟨cause, hcause⟩ := hcause
        rw [normalizeException_cause left hcause, causeChain_cause hcause,
          causeChain_cause (Dict.get_set_self ..), List.take_succ_cons]
        exact .cons (hlink d cause _ hcause) (ih cause)
      · have hroot (cause : Dict) : d.get "cause" ≠ .obj cause := fun h => hcause ⟨cause, h⟩
        rw [causeChain_root hroot, List.take_succ_cons, List.take_nil]
        exact hend (.inr hroot)

/-- Of `n` exceptions the one in place `min n maxCauseDepth`. -/
def decidingException (exception : Dict) : Dict :=
  let chain := causeChain exception
  chain.getD (min chain.length maxCauseDepth - 1) exception

/-- The walk ends at the root, or after as many causes as it follows. -/
theorem walkToRootCause_eq (n : ℕ) (d default : Dict) :
    walkToRootCause n d = (causeChain d).getD (min (causeChain d).length (n + 1) - 1) default := by
  induction n generalizing d with
  | zero =>
      have hpos := List.length_pos_iff.mpr (causeChain_ne_nil d)
      have hindex : min (causeChain d).length (0 + 1) - 1 = 0 := by omega
      obtain ⟨causes, hchain⟩ := causeChain_eq_cons d
      rw [hindex, hchain]
      rfl
  | succ n ih =>
      by_cases hcause : ∃ cause, d.get "cause" = .obj cause
      · obtain ⟨cause, hcause⟩ := hcause
        have hpos := List.length_pos_iff.mpr (causeChain_ne_nil cause)
        have hindex : min ((causeChain cause).length + 1) (n + 1 + 1) - 1 =
            min (causeChain cause).length (n + 1) - 1 + 1 := by omega
        rw [walkToRootCause_cause n hcause, ih cause, causeChain_cause hcause, List.length_cons,
          hindex, List.getD_cons_succ]
      · have hroot (cause : Dict) : d.get "cause" ≠ .obj cause := fun h => hcause ⟨cause, h⟩
        rw [walkToRootCause_root _ hroot, causeChain_root hroot]
        have hindex : min [d].length (n + 1 + 1) - 1 = 0 := by
          rw [List.length_singleton]
          omega
        rw [hindex]
        rfl

theorem walkToRootCause_deciding (d : Dict) :
    walkToRootCause (maxCauseDepth - 1) d = decidingException d := walkToRootCause_eq _ d d

section Grouping

variable (rt : Runtime)

/-- What is hashed of an envelope whose deciding exception is `root`. -/
def rootSignature (platform : Json) (root : Dict) : Except PyError Json := do
  return exceptionSignature platform (capFrames root) (← rootFrames (capFrames root))

/-- The type and the frames are all that is read of an exception. -/
theorem signature_congr (platform : Json) {d d' : Dict} (htype : d.get "type" = d'.get "type")
    (hst : d.get "stacktrace" = d'.get "stacktrace") :
    (do return exceptionSignature platform d (← rootFrames d) : Except PyError Json) =
      (do return exceptionSignature platform d' (← rootFrames d')) := by
  unfold exceptionSignature rootFrames
  rw [htype, hst]

theorem fingerprintSignature_normalized {envelope exception : Dict}
    (hexc : envelope.get "exception" = .obj exception) :
    fingerprintSignature rt (capEnvelope envelope) =
      rootSignature (envelope.get "platform") (decidingException exception) := by
  have hdepth : maxCauseDepth - 1 ≤ maxCauseDepth := by decide
  have hexc' : (capEnvelope envelope).get "exception" =
      .obj (normalizeException (maxCauseDepth - 1) exception) := by
    rw [capEnvelope_exception, hexc]
  have hplatform : (capEnvelope envelope).get "platform" = envelope.get "platform" :=
    capEnvelope_get envelope (by decide)
  have htype := walkToRootCause_normalized hdepth exception (by decide : py "type" ≠ py "cause")
  have hst := walkToRootCause_normalized hdepth exception
    (by decide : py "stacktrace" ≠ py "cause")
  rw [fingerprintSignature, hexc', hplatform]
  dsimp only
  rw [signature_congr _ htype hst, walkToRootCause_deciding]
  rfl

theorem rootSignature_pop (platform : Json) (root : Dict) :
    rootSignature platform (root.pop "cause") = rootSignature platform root := by
  have htype : py "type" ≠ py "cause" := by decide
  have hst : py "stacktrace" ≠ py "cause" := by decide
  unfold rootSignature
  rw [capFrames_pop]
  exact signature_congr platform (Dict.get_pop_ne _ htype) (Dict.get_pop_ne _ hst)

theorem decidingException_pop (root : Dict) :
    decidingException (root.pop "cause") = root.pop "cause" := by
  rw [← walkToRootCause_deciding, walkToRootCause_root _ (get_pop_cause_ne root)]

/-- Two envelopes of one platform whose deciding exceptions agree, causes apart, are grouped
together: either both have the fingerprint or both raise the same error. -/
theorem fingerprint_of_deciding {e e' exception exception' : Dict}
    (hexc : e.get "exception" = .obj exception) (hexc' : e'.get "exception" = .obj exception')
    (hplatform : e'.get "platform" = e.get "platform")
    (hroot : (decidingException exception').pop "cause" =
      (decidingException exception).pop "cause") :
    computeFingerprint rt (capEnvelope e) = computeFingerprint rt (capEnvelope e') := by
  have hsignature : fingerprintSignature rt (capEnvelope e) =
      fingerprintSignature rt (capEnvelope e') := by
    rw [fingerprintSignature_normalized rt hexc, fingerprintSignature_normalized rt hexc',
      hplatform, ← rootSignature_pop, ← hroot, rootSignature_pop]
  unfold computeFingerprint
  rw [hsignature]

/-- Normalising and fingerprinting. -/
def groupOf (envelope : Dict) : Except PyError PyStr :=
  normalizeEnvelope rt envelope >>= computeFingerprint rt

theorem groupOf_eq (envelope : Dict) : groupOf rt envelope =
    if Copyable rt envelope then computeFingerprint rt (capEnvelope envelope)
    else .error .recursionError := by
  rw [groupOf, normalizeEnvelope_eq, bind_ite_ok]

theorem depthFields_decidingException_le (leaf : ℕ) (exception : Dict) :
    Json.depthFields leaf (decidingException exception) ≤ Json.depthFields leaf exception := by
  rw [← walkToRootCause_deciding]
  generalize maxCauseDepth - 1 = n
  induction n generalizing exception with
  | zero => exact le_rfl
  | succ n ih =>
      by_cases hcause : ∃ cause, exception.get "cause" = .obj cause
      · obtain ⟨cause, hcause⟩ := hcause
        have hdeeper : (Json.obj cause).depth leaf ≤ Json.depthFields leaf exception := by
          rw [← hcause]
          exact depth_get_le (by rw [hcause]; exact Json.noConfusion)
        rw [walkToRootCause_cause n hcause]
        exact (ih cause).trans ((Nat.le_succ _).trans hdeeper)
      · rw [walkToRootCause_root _ fun cause h => hcause ⟨cause, h⟩]

/-- The deciding exception is nested no deeper than the chain it is taken from. -/
theorem copyable_of_fields {e e' exception : Dict} (hexc : e.get "exception" = .obj exception)
    (hcopy : Copyable rt e) (hfields : ∀ kv ∈ e', kv ∈ e ∨
      kv.2 = .obj ((decidingException exception).pop "cause")) : Copyable rt e' := by
  have hroot : (Json.obj ((decidingException exception).pop "cause")).depth 1 ≤
      Json.depthFields 1 e := calc
    (Json.obj ((decidingException exception).pop "cause")).depth 1 ≤
        (Json.obj exception).depth 1 := Nat.succ_le_succ
          ((depthFields_pop_le "cause").trans (depthFields_decidingException_le 1 exception))
    _ ≤ Json.depthFields 1 e := by
      rw [← hexc]
      exact depth_get_le (by rw [hexc]; exact Json.noConfusion)
  have hdepth : Json.depthFields 1 e' ≤ Json.depthFields 1 e := by
    refine depthFields_le_iff.mpr fun kv hkv => ?_
    obtain hold | hnew := hfields kv hkv
    · exact depth_le_of_mem hold
    · exact hnew ▸ hroot
  exact (Nat.mul_le_mul_left 2 (Nat.succ_le_succ hdepth)).trans hcopy

/-- The fingerprint of an envelope that can be copied is that of its deciding exception alone; one
that cannot be copied has none. An envelope made of fields of the first and that exception can be
copied too. -/
theorem root_cause_decides_grouping (e exception : Dict)
    (hexc : e.get "exception" = .obj exception) :
    (¬ Copyable rt e → groupOf rt e = .error .recursionError) ∧
    (Copyable rt e →
      (∀ e' : Dict, (∀ kv ∈ e', kv ∈ e ∨
        kv.2 = .obj ((decidingException exception).pop "cause")) → Copyable rt e') ∧
      (∀ e' : Dict, Copyable rt e' → e'.get "platform" = e.get "platform" →
        e'.get "exception" = .obj ((decidingException exception).pop "cause") →
        groupOf rt e = groupOf rt e') ∧
      ∀ e' exception' : Dict, Copyable rt e' → e'.get "platform" = e.get "platform" →
        e'.get "exception" = .obj exception' →
        (decidingException exception').pop "cause" = (decidingException exception).pop "cause" →
        groupOf rt e = groupOf rt e') := by
  simp only [groupOf_eq]
  refine ⟨fun hdeep => if_neg hdeep, fun hcopy => ⟨fun e' => copyable_of_fields rt hexc hcopy,
    fun e' hcopy' hplatform hexc' => ?_, fun e' exception' hcopy' hplatform hexc' hroot => ?_⟩⟩
  · rw [if_pos hcopy, if_pos hcopy']
    refine fingerprint_of_deciding rt hexc hexc' hplatform ?_
    rw [decidingException_pop]
    exact Assoc.erase_erase _ _
  · rw [if_pos hcopy, if_pos hcopy']
    exact fingerprint_of_deciding rt hexc hexc' hplatform hroot

end Grouping

section Deep

/-- A chain of `n + 1` exceptions, each with its number for a type. -/
def deepException : ℕ → Dict
  | 0 => [(py "type", .str (toHex 4 0))]
  | n + 1 => [(py "type", .str (toHex 4 (n + 1))), (py "cause", .obj (deepException n))]

def deepEnvelope (exception : Dict) : Dict :=
  [(py "platform", .str (py "python")), (py "exception", .obj exception)]

theorem decidingException_deep (n : ℕ) : decidingException (deepException (n + 4)) =
    deepException n := by
  rw [← walkToRootCause_deciding]
  rfl

/-- Every exception of a chain is one level deeper than the one around it. -/
theorem depth_deepException (n : ℕ) : (Json.obj (deepException n)).depth 1 = n + 2 := by
  induction n with
  | zero => rfl
  | succ n ih =>
      have hlink : (Json.obj (deepException (n + 1))).depth 1 =
          max 1 (max ((Json.obj (deepException n)).depth 1) 0) + 1 := rfl
      rw [hlink, ih]
      omega

theorem copyable_deepEnvelope (rt : Runtime) (n : ℕ) :
    Copyable rt (deepEnvelope (deepException n)) ↔ 2 * (n + 3) ≤ rt.room.deepcopy := by
  have hdepth : (Json.obj (deepEnvelope (deepException n))).depth 1 =
      max 1 (max ((Json.obj (deepException n)).depth 1) 0) + 1 := rfl
  rw [Copyable, hdepth, depth_deepException]
  omega

/-- Of seven exceptions the fifth decides. -/
theorem deep_chain_grouped : groupOf sampleRuntime (deepEnvelope (deepException 6)) =
    groupOf sampleRuntime (deepEnvelope ((deepException 2).pop "cause")) := by
  have hgrouped := (root_cause_decides_grouping sampleRuntime (deepEnvelope (deepException 6))
    (deepException 6) rfl).2 (by decide +kernel)
  refine hgrouped.2.1 _ (by decide +kernel) rfl ?_
  rw [decidingException_deep]
  rfl

/-- A chain of six hundred exceptions cannot be copied, and its fifth exception alone can. -/
theorem long_chain_raises : ∃ e e' exception : Dict,
    e.get "exception" = .obj exception ∧ e'.get "platform" = e.get "platform" ∧
      e'.get "exception" = .obj ((decidingException exception).pop "cause") ∧
      groupOf sampleRuntime e = .error .recursionError ∧
      (groupOf sampleRuntime e').isOk = true := by
  let root : Dict := [(py "type", .str (toHex 4 (595 + 1)))]
  have hroot : (decidingException (deepException 600)).pop "cause" = root := by
    rw [decidingException_deep (595 + 1), deepException]
    rfl
  have hdeep : ¬ Copyable sampleRuntime (deepEnvelope (deepException 600)) := by
    rw [copyable_deepEnvelope]
    decide
  refine ⟨deepEnvelope (deepException 600), deepEnvelope root, deepException 600, rfl, rfl,
    congrArg Json.obj hroot.symm, ?_, ?_⟩
  · rw [groupOf_eq, if_neg hdeep]
  · decide +kernel

end Deep

end Crashlens
