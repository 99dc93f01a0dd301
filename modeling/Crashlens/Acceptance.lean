import Crashlens.Ingest
import Crashlens.Redelivery
import Crashlens.Storable

/-!
# What becomes of an accepted envelope

Ingest checks the required fields and nothing else; the worker binds the required fields, the
release and the document itself. Of an accepted envelope these values are bound exactly when it can
be copied, the frames of its root cause are iterable, and its id, its release and its document fit
their columns.
-/

namespace Crashlens

/-! ## What the checks of ingest establish -/

section Checks

variable {rt : Runtime} {envelope : Dict}

theorem requireNonemptyStr_ok {d : Dict} {key field : String}
    (h : requireNonemptyStr d key field = .ok ()) : ∃ c cs, d.get key = .str (c :: cs) := by
  unfold requireNonemptyStr at h
  split at h
  · next c cs hget => exact ⟨c, cs, hget⟩
  · cases h

theorem checkEventId_ok (h : checkEventId rt envelope = .ok ()) :
    ∃ s, envelope.get "event_id" = .str s ∧ uuidOk rt s = true := by
  unfold checkEventId at h
  split at h
  · next s hget =>
      split_ifs at h with hs
      exact ⟨s, hget, hs⟩
  · cases h

theorem checkLevel_ok (h : checkLevel envelope = .ok ()) :
    ∃ s, envelope.get "level" = .str s ∧ s ∈ validLevels := by
  unfold checkLevel at h
  split at h
  · next s hget =>
      split_ifs at h with hs
      exact ⟨s, hget, hs⟩
  · cases h
  · cases h
  · cases h

/-- The fields the processor subscripts. -/
structure RequiredFields (rt : Runtime) (envelope : Dict) : Prop where
  eventId : ∃ s, envelope.get "event_id" = .str s ∧ uuidOk rt s = true
  level : ∃ s, envelope.get "level" = .str s ∧ s ∈ validLevels
  environment : ∃ c cs, envelope.get "environment" = .str (c :: cs)

theorem validateEnvelope_ok (h : validateEnvelope rt envelope = .ok ()) :
    RequiredFields rt envelope := by
  obtain ⟨_, hid, h⟩ := bind_ok h
  obtain ⟨_, _, h⟩ := bind_ok h
  obtain ⟨_, _, h⟩ := bind_ok h
  obtain ⟨_, hlevel, h⟩ := bind_ok h
  obtain ⟨_, henvironment, _⟩ := bind_ok h
  exact ⟨checkEventId_ok hid, checkLevel_ok hlevel, requireNonemptyStr_ok henvironment⟩

end Checks

/-! ## What the statements bind -/

section Columns

/-- The event id is one the `uuid` type reads, and the release is absent or a text its columns and
their index take. -/
structure EventCall.FitsColumns (pg : Postgres) (call : EventCall) : Prop where
  eventId : ∃ id, uuidParam pg (call.envelope.get "event_id") = some id
  release : ∃ v, nullableTextParam (call.envelope.get "release") = some v ∧
    (v.filter Text.nonempty).all pg.fitsIndex = true

theorem item_of_get {d : Dict} {key : String} {v : Json} (h : d.get key = v) (hv : v ≠ .null) :
    d.item key = .ok v := by
  unfold Dict.get at h
  unfold Dict.item
  cases hlookup : d.lookup (py key) with
  | none =>
      rw [hlookup] at h
      exact absurd h.symm hv
  | some w =>
      rw [hlookup] at h
      exact congrArg Except.ok h

/-- The five accepted levels are the five the check constraint allows. -/
theorem levelParam_of_mem {s : PyStr} (h : s ∈ validLevels) :
    ∃ level, levelParam (.str s) = some level := by
  have hall : ∀ s ∈ validLevels, (levelParam (.str s)).isSome = true := by decide
  exact Option.isSome_iff_exists.mp (hall s h)

theorem textParam_of_storable {s : PyStr} (h : s.storable = true) :
    textParam (.str s) = some ⟨s, h⟩ := dif_pos h

variable {pg : Postgres} {rt : Runtime} {call : EventCall}

theorem environment_storable (h : (Json.obj (symbolicated rt call)).storable = true) :
    (call.envelope.get "environment").storable = true := by
  have hget : (symbolicated rt call).get "environment" = call.envelope.get "environment" :=
    symbolicated_get rt call (by decide)
  rw [← hget]
  exact get_storable h "environment"

/-- Every value of an accepted envelope that fits its columns is bound. -/
theorem bound_of_accepted (haccepted : validateEnvelope rt call.envelope = .ok ())
    (hcopy : Copyable rt call.envelope) (hframes : RootFramesOk call.envelope)
    (hfits : call.FitsColumns pg) (hpayload : (Json.obj (symbolicated rt call)).storable = true) :
    ∃ b, call.bound pg rt = some b ∧
      uuidParam pg (call.envelope.get "event_id") = some b.eventId ∧
      levelParam (call.envelope.get "level") = some b.level ∧
      textParam (call.envelope.get "environment") = some b.environment ∧
      nullableTextParam (call.envelope.get "release") = some b.release ∧
      b.payload = symbolicated rt call := by
  obtain ⟨⟨s, hid, -⟩, ⟨l, hlevel, hvalid⟩, ⟨c, cs, henvironment⟩⟩ := validateEnvelope_ok haccepted
  obtain ⟨⟨id, huuid⟩, ⟨v, hrelease, hindex⟩⟩ := hfits
  obtain ⟨level, hcolumn⟩ := levelParam_of_mem hvalid
  have hiterable := (framesIterable_symbolicated rt call).mpr hframes
  obtain ⟨fingerprint, hfp, hfpText⟩ := computeFingerprint_storable rt hpayload hiterable
  obtain ⟨title, htitle, htitleText⟩ := deriveTitle_ok rt (symbolicated rt call)
  have henvText : PyStr.storable (c :: cs) = true := by
    have h := environment_storable hpayload
    rwa [henvironment] at h
  have hprep : prepare rt call = .ok ⟨call.projectId, call.seenAt, fingerprint, title, .str s,
      .str l, .str (c :: cs), call.envelope.get "release", symbolicated rt call⟩ :=
    prepare_ok_iff.mpr ⟨fingerprint, title, .str s, .str l, .str (c :: cs), hcopy, hfp, htitle,
      item_of_get hid (by simp), item_of_get hlevel (by simp), item_of_get henvironment (by simp),
      rfl⟩
  let b : Bound := ⟨call.projectId, call.seenAt, ⟨fingerprint, hfpText⟩,
    ⟨title, htitleText hpayload⟩, id, level, ⟨c :: cs, henvText⟩, v, symbolicated rt call⟩
  have hb : call.bound pg rt = some b :=
    bound_of_prepare hprep ⟨rfl, rfl, hid ▸ huuid, dif_pos hfpText, dif_pos (htitleText hpayload),
      hcolumn, textParam_of_storable henvText, hrelease, hindex, hpayload, rfl⟩
  exact ⟨b, hb, huuid, hlevel ▸ hcolumn, henvironment ▸ textParam_of_storable henvText, hrelease,
    rfl⟩

end Columns

end Crashlens
