import Crashlens.Library.Loops
import Mathlib.Data.List.Basic
import Mathlib.Tactic.NormNum

/-!
# The decompression cap

`decompress_gzip` takes the output of a streaming decompressor chunk by chunk and gives up as soon
as the buffer is over the cap. The loop is a step function over the places between its statements,
so that what the buffer holds in the middle of an iteration is a state as well.
-/

namespace Crashlens.Gzip

abbrev Bytes := List UInt8

def maxDecompressedBytes : ℕ := 1024 * 1024
def decompressChunk : ℕ := 64 * 1024

inductive IngestError where
  | payloadTooLarge
  | malformedBody
deriving DecidableEq

/-- `zlib.decompressobj`; a call without a result raises `zlib.error`. -/
structure Decompressor (σ : Type) where
  start : σ
  decompress : σ → (data : Bytes) → (maxLength : ℕ) → Option (Bytes × σ)
  unconsumedTail : σ → Bytes
  flush : σ → Option Bytes

/-- Where `decompress_gzip` stands, with the buffer `out`. -/
inductive State (σ : Type) where
  | start
  /-- At `while chunk`. -/
  | loop (s : σ) (out chunk : Bytes)
  | extended (s : σ) (out : Bytes)
  | drained (s : σ) (out : Bytes)
  | flushed (out : Bytes)
  | done (out : Bytes) (result : Except IngestError Bytes)

def State.buffer {σ : Type} : State σ → Bytes
  | .start => []
  | .loop _ out _ => out
  | .extended _ out => out
  | .drained _ out => out
  | .flushed out => out
  | .done out _ => out

def State.Done {σ : Type} : State σ → Prop
  | .done _ _ => True
  | _ => False

section Steps

variable {σ : Type} (d : Decompressor σ) (data : Bytes)

def step : State σ → State σ
  | .start =>
    match d.decompress d.start data decompressChunk with
    | some (chunk, s) => .loop s [] chunk
    | none => .done [] (.error .malformedBody)
  | .loop s out chunk => if chunk.isEmpty then .drained s out else .extended s (out ++ chunk)
  | .extended s out =>
    if maxDecompressedBytes < out.length then .done out (.error .payloadTooLarge)
    else
      match d.decompress s (d.unconsumedTail s) decompressChunk with
      | some (chunk, s') => .loop s' out chunk
      | none => .done out (.error .malformedBody)
  | .drained s out =>
    match d.flush s with
    | some tail => if tail.isEmpty then .done out (.ok out) else .flushed (out ++ tail)
    | none => .done out (.error .malformedBody)
  | .flushed out =>
    if maxDecompressedBytes < out.length then .done out (.error .payloadTooLarge)
    else .done out (.ok out)
  | .done out result => .done out result

/-- From this state and this input, the calls of the loop hand out the output piece by piece, an
empty piece when there is no more, and then the flush has nothing to add. -/
inductive Streams : σ → Bytes → Bytes → Prop where
  | last {s s' : σ} {input : Bytes} (h : d.decompress s input decompressChunk = some ([], s'))
      (hflush : d.flush s' = some []) : Streams s input []
  | next {s s' : σ} {input chunk rest : Bytes}
      (h : d.decompress s input decompressChunk = some (chunk, s')) (hne : chunk ≠ [])
      (hlength : chunk.length ≤ decompressChunk) (hrest : Streams s' (d.unconsumedTail s') rest) :
      Streams s input (chunk ++ rest)

/-- What the loop has of the output and what is still to come. -/
def Inv (output : Bytes) : State σ → Prop
  | .start => Streams d d.start data output
  | .loop s out chunk => out.length ≤ maxDecompressedBytes ∧ chunk.length ≤ decompressChunk ∧
      ((chunk = [] ∧ output = out ∧ d.flush s = some []) ∨
        (chunk ≠ [] ∧ ∃ rest, output = out ++ chunk ++ rest ∧
          Streams d s (d.unconsumedTail s) rest))
  | .extended s out => out.length ≤ maxDecompressedBytes + decompressChunk ∧
      ∃ rest, output = out ++ rest ∧ Streams d s (d.unconsumedTail s) rest
  | .drained s out => out.length ≤ maxDecompressedBytes ∧ output = out ∧ d.flush s = some []
  | .flushed _ => False
  | .done out result => out.length ≤ maxDecompressedBytes + decompressChunk ∧
      result = if output.length ≤ maxDecompressedBytes then .ok output else .error .payloadTooLarge

variable {d data} {output : Bytes} {s : σ} {input rest : Bytes}

/-- A call that streams leaves the loop where it takes the piece or sees that there is none. -/
theorem Streams.call (h : Streams d s input rest) (data out : Bytes)
    (hout : out.length ≤ maxDecompressedBytes) (houtput : output = out ++ rest) :
    ∃ chunk s', d.decompress s input decompressChunk = some (chunk, s') ∧
      Inv d data output (.loop s' out chunk) := by
  cases h with
  | last h hflush =>
      rw [List.append_nil] at houtput
      exact ⟨_, _, h, hout, Nat.zero_le _, .inl ⟨rfl, houtput, hflush⟩⟩
  | next h hne hlength hrest =>
      refine ⟨_, _, h, hout, hlength, .inr ⟨hne, _, ?_, hrest⟩⟩
      rw [houtput, List.append_assoc]

theorem inv_step (st : State σ) (h : Inv d data output st) :
    Inv d data output (step d data st) := by
  cases st with
  | start =>
      obtain ⟨chunk, s', hcall, hinv⟩ := h.call data [] (Nat.zero_le _) rfl
      simp only [step, hcall]
      exact hinv
  | loop s out chunk =>
      obtain ⟨hout, hchunk, ⟨rfl, houtput, hflush⟩ | ⟨hne, rest, houtput, hrest⟩⟩ := h
      · exact ⟨hout, houtput, hflush⟩
      · simp only [step, List.isEmpty_eq_false_iff.mpr hne]
        refine ⟨?_, rest, houtput, hrest⟩
        rw [List.length_append]
        omega
  | extended s out =>
      obtain ⟨hout, rest, houtput, hrest⟩ := h
      by_cases hover : maxDecompressedBytes < out.length
      · have hlength : ¬ output.length ≤ maxDecompressedBytes := by
          rw [houtput, List.length_append]
          omega
        simp only [step, if_pos hover]
        exact ⟨hout, (if_neg hlength).symm⟩
      · obtain ⟨chunk, s', hcall, hinv⟩ := hrest.call data out (not_lt.mp hover) houtput
        simp only [step, if_neg hover, hcall]
        exact hinv
  | drained s out =>
      obtain ⟨hout, rfl, hflush⟩ := h
      simp only [step, hflush]
      exact ⟨hout.trans (Nat.le_add_right _ _), (if_pos hout).symm⟩
  | flushed out => exact h.elim
  | done out result => exact h

/-- How much of the output is still to come, with a little more where a step comes first that does
not add to the buffer. -/
def variant (output : Bytes) : State σ → ℕ
  | .start => 2 * output.length + 4
  | .loop _ out _ => 2 * (output.length - out.length) + 2
  | .extended _ out => 2 * (output.length - out.length) + 3
  | .drained _ _ => 1
  | .flushed _ => 1
  | .done _ _ => 0

theorem variant_step (st : State σ) (h : Inv d data output st) (hdone : ¬ st.Done) :
    variant output (step d data st) < variant output st := by
  cases st with
  | start =>
      obtain ⟨chunk, s', hcall, -⟩ := h.call data [] (Nat.zero_le _) rfl
      simp only [step, hcall, variant, List.length_nil]
      omega
  | loop s out chunk =>
      obtain ⟨hout, hchunk, ⟨rfl, houtput, hflush⟩ | ⟨hne, rest, houtput, hrest⟩⟩ := h
      · simp only [step, List.isEmpty_nil, if_true, variant]
        omega
      · have hpos := List.length_pos_iff.mpr hne
        have hlength := congrArg List.length houtput
        simp only [List.length_append] at hlength
        simp only [step, List.isEmpty_eq_false_iff.mpr hne, Bool.false_eq_true, if_false, variant,
          List.length_append]
        omega
  | extended s out =>
      obtain ⟨hout, rest, houtput, hrest⟩ := h
      by_cases hover : maxDecompressedBytes < out.length
      · simp only [step, if_pos hover, variant]
        omega
      · obtain ⟨chunk, s', hcall, -⟩ := hrest.call data out (not_lt.mp hover) houtput
        simp only [step, if_neg hover, hcall, variant]
        omega
  | drained s out =>
      obtain ⟨-, -, hflush⟩ := h
      simp only [step, hflush, List.isEmpty_nil, if_true, variant]
      exact Nat.one_pos
  | flushed out => exact h.elim
  | done out result => exact absurd trivial hdone

/-- The places that a buffer over the cap does not get to. -/
def WithinCap : State σ → Prop
  | .loop _ out _ => out.length ≤ maxDecompressedBytes
  | .drained _ out => out.length ≤ maxDecompressedBytes
  | .done _ (.ok output) => output.length ≤ maxDecompressedBytes
  | _ => True

/-- Whatever the decompressor hands out. -/
theorem withinCap_step (st : State σ) (h : WithinCap st) : WithinCap (step d data st) := by
  cases st with
  | start =>
      rw [step]
      split
      · exact Nat.zero_le _
      · trivial
  | loop s out chunk =>
      rw [step]
      split
      · exact h
      · trivial
  | extended s out =>
      rw [step]
      split_ifs with hover
      · trivial
      · split
        · exact not_lt.mp hover
        · trivial
  | drained s out =>
      rw [step]
      split
      · split_ifs
        · exact h
        · trivial
      · trivial
  | flushed out =>
      rw [step]
      split_ifs with hover
      · trivial
      · exact not_lt.mp hover
  | done out result => exact h

/-- What `decompress_gzip` returns is within the cap. -/
theorem result_within_cap {n : ℕ} {out output : Bytes}
    (h : (step d data)^[n] .start = .done out (.ok output)) :
    output.length ≤ maxDecompressedBytes := by
  have hstart : WithinCap (.start : State σ) := trivial
  have hwithin : WithinCap ((step d data)^[n] .start) :=
    Loops.iterate_invariant withinCap_step hstart n
  rwa [h] at hwithin

/-- The function is `decompress_gzip` over this decompressor. -/
def Decompressor.Runs (d : Decompressor σ) (gunzip : Bytes → Except IngestError Bytes) : Prop :=
  ∀ data, ∃ n out, (step d data)^[n] .start = .done out (gunzip data)

theorem Inv.buffer_le {st : State σ} (h : Inv d data output st) :
    st.buffer.length ≤ maxDecompressedBytes + decompressChunk := by
  cases st with
  | start => exact Nat.zero_le _
  | loop s out chunk => exact h.1.trans (Nat.le_add_right _ _)
  | extended s out => exact h.1
  | drained s out => exact h.1.trans (Nat.le_add_right _ _)
  | flushed out => exact h.elim
  | done out result => exact h.1

end Steps

/-- The loop ends with the whole output or, when that is over the cap, with the refusal, and at no
moment does the buffer hold more than a chunk over the cap. -/
theorem decompress_gzip_exact_and_bounded {σ : Type} (d : Decompressor σ) (data output : Bytes)
    (h : Streams d d.start data output) :
    (∃ n out, (step d data)^[n] .start = .done out
      (if output.length ≤ maxDecompressedBytes then .ok output else .error .payloadTooLarge)) ∧
      ∀ n, ((step d data)^[n] .start).buffer.length ≤ maxDecompressedBytes + decompressChunk := by
  have hstart : Inv d data output .start := h
  constructor
  · obtain ⟨n, hdone⟩ := Loops.exists_iterate_done (variant output) inv_step variant_step hstart
    have hinv := Loops.iterate_invariant inv_step hstart n
    cases hstate : (step d data)^[n] .start with
    | done out result =>
        rw [hstate] at hinv
        exact ⟨n, out, hstate.trans (congrArg _ hinv.2)⟩
    | start | loop | extended | drained | flushed =>
        rw [hstate] at hdone
        exact hdone.elim
  · intro n
    exact (Loops.iterate_invariant inv_step hstart n).buffer_le

/-- A decompressor that holds the output left to hand out. -/
def stored (output : Bytes) : Decompressor Bytes where
  start := output
  decompress s _ maxLength := some (s.take maxLength, s.drop maxLength)
  unconsumedTail s := s
  flush _ := some []

theorem stored_streams (output s input : Bytes) : Streams (stored output) s input s := by
  induction hlength : s.length using Nat.strong_induction_on generalizing s input with
  | h n ih =>
      by_cases hempty : s = []
      · subst hempty
        exact .last rfl rfl
      · have hchunk : decompressChunk ≠ 0 := by decide
        have hne : s.take decompressChunk ≠ [] := by
          rw [ne_eq, List.take_eq_nil_iff, not_or]
          exact ⟨hchunk, hempty⟩
        have hless : (s.drop decompressChunk).length < n := by
          have hpos := List.length_pos_iff.mpr hempty
          rw [List.length_drop]
          omega
        have hrest := ih _ hless (s.drop decompressChunk) (s.drop decompressChunk) rfl
        have hnext : Streams (stored output) s input
            (s.take decompressChunk ++ s.drop decompressChunk) :=
          .next rfl hne (List.length_take_le ..) hrest
        rwa [List.take_append_drop] at hnext

/-- One byte over the cap is refused. -/
theorem stored_over_cap_refused :
    let output := List.replicate (maxDecompressedBytes + 1) (0 : UInt8)
    (∃ n out, (step (stored output) [])^[n] .start = .done out (.error .payloadTooLarge)) ∧
      ∀ n, ((step (stored output) [])^[n] .start).buffer.length ≤
        maxDecompressedBytes + decompressChunk := by
  intro output
  have hlength : ¬ output.length ≤ maxDecompressedBytes := by
    rw [List.length_replicate]
    omega
  have h := decompress_gzip_exact_and_bounded (stored output) [] output
    (stored_streams output output [])
  rwa [if_neg hlength] at h

end Crashlens.Gzip
