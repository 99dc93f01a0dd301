import Crashlens.RootCause

/-!
# What is storable of a storable document

Every part of a document that `jsonb` takes can be stored itself: it encodes as UTF-8, its
fingerprint signature is again such a document, and its title is a `text` value. The only way left
for the pure half of the processor to fail on it is a stack trace whose frames are no iterable.
-/

namespace Crashlens

/-! ## Strings -/

section Strings

theorem storable_iff {s : PyStr} : s.storable = true ↔ ∀ c ∈ s, CodePoint.storable c = true :=
  List.all_eq_true

theorem storable_of_subset {s t : PyStr} (ht : t.storable = true) (hsub : ∀ c ∈ s, c ∈ t) :
    s.storable = true := storable_iff.mpr fun c hc => storable_iff.mp ht c (hsub c hc)

theorem storable_append {s t : PyStr} (hs : s.storable = true) (ht : t.storable = true) :
    PyStr.storable (s ++ t) = true := by
  rw [PyStr.storable, List.all_append, Bool.and_eq_true]
  exact ⟨hs, ht⟩

/-- No lone surrogates. -/
def PyStr.Encodable (s : PyStr) : Prop := ∀ c ∈ s, CodePoint.isSurrogate c = false

theorem encodable_of_storable {s : PyStr} (h : s.storable = true) : s.Encodable := by
  intro c hc
  have hstorable := storable_iff.mp h c hc
  rw [CodePoint.storable, Bool.and_eq_true] at hstorable
  simpa using hstorable.2

theorem encodable_append {s t : PyStr} (hs : s.Encodable) (ht : t.Encodable) :
    PyStr.Encodable (s ++ t) := by
  intro c hc
  rcases List.mem_append.mp hc with hc | hc
  · exact hs c hc
  · exact ht c hc

/-- A Lean character is never a surrogate. -/
theorem py_encodable (s : String) : (py s).Encodable := by
  intro c hc
  obtain ⟨ch, -, rfl⟩ := List.mem_map.mp hc
  have hvalid : ch.toNat < 0xD800 ∨ (0xDFFF < ch.toNat ∧ ch.toNat < 0x110000) := ch.valid
  have hval : (CodePoint.ofNat ch.toNat).val = ch.toNat := Nat.mod_eq_of_lt (by omega)
  rw [CodePoint.isSurrogate, hval]
  rcases hvalid with hlt | ⟨hgt, -⟩
  · simp; omega
  · simp; omega

theorem utf8Encode_ok {s : PyStr} (h : s.Encodable) : ∃ bytes, utf8Encode s = .ok bytes := by
  induction s with
  | nil => exact ⟨[], rfl⟩
  | cons c cs ih =>
      obtain ⟨rest, hrest⟩ := ih fun d hd => h d (List.mem_cons_of_mem c hd)
      have hc := h c (List.mem_cons_self ..)
      simp only [utf8Encode, hc, Bool.false_eq_true, if_false, hrest, bind, Except.bind, pure,
        Except.pure]
      split_ifs
      all_goals exact ⟨_, rfl⟩

theorem hexDigit_storable (n : ℕ) : CodePoint.storable (hexDigit (n % 16)) = true := by
  have hdigits : ∀ d : Fin 16, CodePoint.storable (hexDigit d.val) = true := by decide
  exact hdigits ⟨n % 16, Nat.mod_lt n (by omega)⟩

theorem toHex_storable (width n : ℕ) : (toHex width n).storable = true := by
  induction width generalizing n with
  | zero => rfl
  | succ width ih =>
      refine storable_append (ih (n / 16)) (storable_iff.mpr fun c hc => ?_)
      rw [List.mem_singleton.mp hc]
      exact hexDigit_storable n

theorem truncateString_storable {s : PyStr} (hs : s.storable = true) (limit : ℕ) :
    (truncateString s limit).storable = true := by
  unfold truncateString
  split_ifs
  · exact hs
  · exact storable_append (storable_of_subset hs fun c hc => List.mem_of_mem_take hc) (by decide)

/-- A substitution keeps characters of the string and adds those of the replacement. -/
theorem mem_substitute {matched : Option CodePoint → PyStr → ℕ} {rep : PyStr}
    {prev : Option CodePoint} {skip : ℕ} {s : PyStr} {c : CodePoint}
    (h : c ∈ substitute matched rep prev skip s) : c ∈ s ∨ c ∈ rep := by
  induction s generalizing prev skip with
  | nil => cases skip <;> cases h
  | cons d s ih =>
      have hrest {prev : Option CodePoint} {skip : ℕ} (h : c ∈ substitute matched rep prev skip s) :
          c ∈ d :: s ∨ c ∈ rep := (ih h).imp_left (List.mem_cons_of_mem d)
      cases skip with
      | succ skip => exact hrest h
      | zero =>
          rw [substitute] at h
          split at h
          · rcases List.mem_cons.mp h with rfl | h
            · exact .inl (List.mem_cons_self ..)
            · exact hrest h
          · rcases List.mem_append.mp h with h | h
            · exact .inr h
            · exact hrest h

theorem substitute_storable {matched : Option CodePoint → PyStr → ℕ} {rep s : PyStr}
    (hs : s.storable = true) (hrep : rep.storable = true) :
    (substitute matched rep none 0 s).storable = true := by
  refine storable_iff.mpr fun c hc => ?_
  rcases mem_substitute hc with hc | hc
  · exact storable_iff.mp hs c hc
  · exact storable_iff.mp hrep c hc

theorem normalizeMessage_storable (rt : Runtime) {s : PyStr} (hs : s.storable = true) :
    (normalizeMessage rt s).storable = true :=
  substitute_storable (substitute_storable (substitute_storable hs (by decide)) (by decide))
    (by decide)

/-- A non-empty string has a first line, and its lines are made of its characters. -/
theorem splitlines_cons (c : CodePoint) (cs : PyStr) : ∃ line lines,
    splitlines (c :: cs) = line :: lines := by
  cases cs with
  | nil =>
      rw [splitlines]
      split_ifs
      all_goals exact ⟨_, _, rfl⟩
  | cons d cs =>
      rw [splitlines]
      split_ifs
      · exact ⟨_, _, rfl⟩
      · exact ⟨_, _, rfl⟩
      · split
        · exact ⟨_, _, rfl⟩
        · exact ⟨_, _, rfl⟩

theorem mem_of_mem_splitlines {s line : PyStr} {c : CodePoint} (hline : line ∈ splitlines s)
    (hc : c ∈ line) : c ∈ s := by
  fun_induction splitlines s generalizing line with
  | case1 => cases hline
  | case2 d hbreak =>
      rw [List.mem_singleton.mp hline] at hc
      cases hc
  | case3 d hbreak => exact List.mem_singleton.mp hline ▸ hc
  | case4 d e cs hcrlf ih =>
      rcases List.mem_cons.mp hline with rfl | hline
      · cases hc
      · exact List.mem_cons_of_mem d (List.mem_cons_of_mem e (ih hline hc))
  | case5 d e cs hcrlf hbreak ih =>
      rcases List.mem_cons.mp hline with rfl | hline
      · cases hc
      · exact List.mem_cons_of_mem d (ih hline hc)
  | case6 d e cs hcrlf hbreak hnil ih =>
      rw [List.mem_singleton.mp hline] at hc
      rw [List.mem_singleton.mp hc]
      exact List.mem_cons_self ..
  | case7 d e cs hcrlf hbreak first lines hlines ih =>
      rw [hlines] at ih
      rcases List.mem_cons.mp hline with rfl | hline
      · rcases List.mem_cons.mp hc with rfl | hc
        · exact List.mem_cons_self ..
        · exact List.mem_cons_of_mem d (ih (List.mem_cons_self ..) hc)
      · exact List.mem_cons_of_mem d (ih (List.mem_cons_of_mem first hline) hc)

end Strings

/-! ## Documents -/

section Documents

theorem storableItems_iff {xs : List Json} :
    Json.storableItems xs = true ↔ ∀ x ∈ xs, x.storable = true := by
  induction xs with
  | nil => simp [Json.storableItems]
  | cons x xs ih => simp [Json.storableItems, ih]

theorem storableFields_iff {d : Dict} : Json.storableFields d = true ↔
    ∀ kv ∈ d, PyStr.storable kv.1 = true ∧ kv.2.storable = true := by
  induction d with
  | nil => simp [Json.storableFields]
  | cons kv d ih => simp [Json.storableFields, ih]

theorem getD_storable {d : Dict} (hd : Json.storableFields d = true) (key : String)
    {default : Json} (hdefault : default.storable = true) :
    (d.getD key default).storable = true := by
  unfold Dict.getD
  cases hv : d.lookup (py key) with
  | none => exact hdefault
  | some v =>
      obtain ⟨l₁, l₂, rfl, -⟩ := List.lookup_eq_some_iff.mp hv
      exact (storableFields_iff.mp hd (py key, v) (by simp)).2

theorem get_storable {d : Dict} (hd : Json.storableFields d = true) (key : String) :
    (d.get key).storable = true := getD_storable hd key rfl

/-- An object found in a storable document is one. -/
theorem get_obj_storable {d e : Dict} (hd : Json.storableFields d = true) {key : String}
    (h : d.get key = .obj e) : Json.storableFields e = true := by
  have hget := get_storable hd key
  rw [h] at hget
  exact hget

theorem iter_storable {v : Json} {xs : List Json} (hv : v.storable = true) (h : v.iter = .ok xs) :
    ∀ x ∈ xs, x.storable = true := by
  cases v with
  | arr items =>
      cases h
      exact storableItems_iff.mp hv
  | obj fields =>
      cases h
      intro x hx
      obtain ⟨kv, hkv, rfl⟩ := List.mem_map.mp hx
      exact (storableFields_iff.mp hv kv hkv).1
  | str s =>
      cases h
      intro x hx
      obtain ⟨c, hc, rfl⟩ := List.mem_map.mp hx
      exact storable_of_subset hv fun d hd => List.mem_singleton.mp hd ▸ hc
  | _ => cases h

end Documents

/-! ## Serialisation -/

section Dumps

variable (rt : Runtime)

theorem escape_encodable {c : CodePoint} (hc : CodePoint.isSurrogate c = false) :
    PyStr.Encodable (Runtime.escape c) := by
  unfold Runtime.escape
  split_ifs
  · exact py_encodable _
  · exact py_encodable _
  · exact py_encodable _
  · exact py_encodable _
  · exact py_encodable _
  · exact py_encodable _
  · exact py_encodable _
  · exact encodable_append (py_encodable _) (encodable_of_storable (toHex_storable 4 c.val))
  · exact fun d hd => List.mem_singleton.mp hd ▸ hc

theorem quote_encodable {s : PyStr} (hs : s.Encodable) : (Runtime.quote s).Encodable := by
  refine encodable_append (encodable_append (py_encodable _) fun c hc => ?_) (py_encodable _)
  obtain ⟨d, hd, hc⟩ := List.mem_flatMap.mp hc
  exact escape_encodable (hs d hd) c hc

theorem joinComma_encodable {parts : List PyStr} (h : ∀ s ∈ parts, PyStr.Encodable s) :
    (Runtime.joinComma parts).Encodable := by
  induction parts with
  | nil => exact fun c hc => by cases hc
  | cons s parts ih =>
      have hs := h s (List.mem_cons_self ..)
      have hrest := ih fun t ht => h t (List.mem_cons_of_mem s ht)
      cases parts with
      | nil => exact hs
      | cons t parts => exact encodable_append (encodable_append hs (py_encodable _)) hrest

mutual

theorem dumps_encodable : (v : Json) → v.storable = true → (rt.dumps v).Encodable
  | .null, _ => py_encodable _
  | .bool b, _ => by
      cases b
      · exact py_encodable _
      · exact py_encodable _
  | .int n, _ => py_encodable _
  | .float (.finite negative q), _ => fun c hc => by
      obtain ⟨-, hlt⟩ := rt.floatRepr_ascii negative q c hc
      simp [CodePoint.isSurrogate]
      omega
  | .str s, h => quote_encodable (encodable_of_storable h)
  | .arr xs, h => by
      have hitems := joinComma_encodable (dumpsItems_encodable xs h)
      exact encodable_append (encodable_append (py_encodable _) hitems) (py_encodable _)
  | .obj kvs, h => by
      have hfields := dumpsFields_encodable kvs h
      have hparts : ∀ s ∈ ((rt.dumpsFields kvs).insertionSort Runtime.keyLe).map (fun kv =>
          Runtime.quote kv.1 ++ py ":" ++ kv.2), PyStr.Encodable s := by
        intro s hs
        obtain ⟨kv, hkv, rfl⟩ := List.mem_map.mp hs
        obtain ⟨hk, hv⟩ := hfields kv ((List.perm_insertionSort _ _).mem_iff.mp hkv)
        exact encodable_append (encodable_append (quote_encodable hk) (py_encodable _)) hv
      exact encodable_append (encodable_append (py_encodable _) (joinComma_encodable hparts))
        (py_encodable _)

theorem dumpsItems_encodable : (xs : List Json) → Json.storableItems xs = true →
    ∀ s ∈ rt.dumpsItems xs, PyStr.Encodable s
  | [], _ => fun _ hs => by cases hs
  | x :: xs, h => by
      rw [Json.storableItems, Bool.and_eq_true] at h
      intro s hs
      rcases List.mem_cons.mp hs with rfl | hs
      · exact dumps_encodable x h.1
      · exact dumpsItems_encodable xs h.2 s hs

theorem dumpsFields_encodable : (kvs : List (PyStr × Json)) → Json.storableFields kvs = true →
    ∀ kv ∈ rt.dumpsFields kvs, PyStr.Encodable kv.1 ∧ PyStr.Encodable kv.2
  | [], _ => fun _ hkv => by cases hkv
  | (k, v) :: kvs, h => by
      rw [Json.storableFields, Bool.and_eq_true, Bool.and_eq_true] at h
      intro kv hkv
      rcases List.mem_cons.mp hkv with rfl | hkv
      · exact ⟨encodable_of_storable h.1.1, dumps_encodable v h.1.2⟩
      · exact dumpsFields_encodable kvs h.2 kv hkv

end

end Dumps

/-! ## Fingerprint and title -/

section Pure

variable {rt : Runtime} {d : Dict}

theorem walkToRootCause_storable (n : ℕ) (hd : Json.storableFields d = true) :
    Json.storableFields (walkToRootCause n d) = true := by
  induction n generalizing d with
  | zero => exact hd
  | succ n ih =>
      unfold walkToRootCause
      split
      · next cause hcause => exact ih (get_obj_storable hd hcause)
      · exact hd

theorem rootFrames_storable (hd : Json.storableFields d = true) {frames : List Json}
    (h : rootFrames d = .ok frames) : ∀ f ∈ frames, f.storable = true := by
  unfold rootFrames at h
  split at h
  · next stacktrace hst =>
      exact iter_storable (getD_storable (get_obj_storable hd hst) "frames" rfl) h
  · cases h
    exact fun f hf => by cases hf

theorem mem_lastN {α : Type} {n : ℕ} {xs : List α} {x : α} (h : x ∈ lastN n xs) : x ∈ xs :=
  List.mem_of_mem_drop h

theorem mem_selectedFrames {frames : List Json} {f : Dict} (h : f ∈ selectedFrames frames) :
    .obj f ∈ frames := by
  have hdict : f ∈ frames.filterMap asDict := by
    have hcandidate := mem_lastN h
    split_ifs at hcandidate
    · exact hcandidate
    · exact List.mem_of_mem_filter hcandidate
  obtain ⟨v, hv, hfv⟩ := List.mem_filterMap.mp hdict
  cases v with
  | obj fields =>
      cases hfv
      exact hv
  | _ => cases hfv

theorem exceptionSignature_storable {platform : Json} {root : Dict} {frames : List Json}
    (hplatform : platform.storable = true) (hroot : Json.storableFields root = true)
    (hframes : ∀ f ∈ frames, f.storable = true) :
    (exceptionSignature platform root frames).storable = true := by
  have hrows : ∀ row ∈ (selectedFrames frames).map (fun f => Json.arr [f.get "filename",
      f.get "function"]), row.storable = true := by
    intro row hrow
    obtain ⟨f, hf, rfl⟩ := List.mem_map.mp hrow
    have hfields : Json.storableFields f = true := hframes _ (mem_selectedFrames hf)
    refine storableItems_iff.mpr fun x hx => ?_
    rcases List.mem_pair.mp hx with rfl | rfl
    · exact get_storable hfields _
    · exact get_storable hfields _
  refine storableFields_iff.mpr fun kv hkv => ?_
  simp only [List.mem_cons, List.not_mem_nil, or_false] at hkv
  rcases hkv with rfl | rfl | rfl | rfl
  · exact ⟨rfl, rfl⟩
  · exact ⟨rfl, hplatform⟩
  · exact ⟨rfl, get_storable hroot _⟩
  · exact ⟨rfl, storableItems_iff.mpr hrows⟩

theorem messageSignature_storable {platform level message : Json}
    (hplatform : platform.storable = true) (hlevel : level.storable = true)
    (hmessage : message.storable = true) :
    (messageSignature rt platform level message).storable = true := by
  refine storableFields_iff.mpr fun kv hkv => ?_
  simp only [List.mem_cons, List.not_mem_nil, or_false] at hkv
  rcases hkv with rfl | rfl | rfl | rfl
  · exact ⟨rfl, rfl⟩
  · exact ⟨rfl, hplatform⟩
  · exact ⟨rfl, hlevel⟩
  · refine ⟨rfl, normalizeMessage_storable rt ?_⟩
    cases message with
    | str s => exact hmessage
    | _ => rfl

/-- The signature of a storable document is one, and only its frames can be in the way. -/
theorem fingerprintSignature_storable (rt : Runtime) (hd : Json.storableFields d = true)
    (h : FramesIterable d) :
    ∃ sig, fingerprintSignature rt d = .ok sig ∧ sig.storable = true := by
  unfold fingerprintSignature
  split
  · next exception hexc =>
      obtain ⟨frames, hframes⟩ := h exception hexc
      have hroot := walkToRootCause_storable maxCauseDepth (get_obj_storable hd hexc)
      simp only [hframes]
      exact ⟨_, rfl, exceptionSignature_storable (get_storable hd _) hroot
        (rootFrames_storable hroot hframes)⟩
  · exact ⟨_, rfl, messageSignature_storable (get_storable hd _) (get_storable hd _)
      (get_storable hd _)⟩

theorem computeFingerprint_storable (rt : Runtime) (hd : Json.storableFields d = true)
    (h : FramesIterable d) :
    ∃ fingerprint, computeFingerprint rt d = .ok fingerprint ∧
      PyStr.storable fingerprint = true := by
  obtain ⟨sig, hsig, hstorable⟩ := fingerprintSignature_storable rt hd h
  obtain ⟨bytes, hbytes⟩ := utf8Encode_ok (dumps_encodable rt sig hstorable)
  refine ⟨rt.hexdigest bytes, ?_, toHex_storable _ _⟩
  rw [computeFingerprint, hsig]
  simp only [bind, Except.bind, hbytes, pure, Except.pure]

theorem firstLine_ok (v : Json) : ∃ line, firstLine v = .ok line ∧
    (v.storable = true → PyStr.storable line = true) := by
  unfold firstLine
  split
  · next c cs =>
      obtain ⟨line, lines, hlines⟩ := splitlines_cons c cs
      rw [hlines]
      refine ⟨line, rfl, fun hv => storable_of_subset hv fun d hd => ?_⟩
      exact mem_of_mem_splitlines (by rw [hlines]; exact List.mem_cons_self ..) hd
  · exact ⟨[], rfl, fun _ => rfl⟩

theorem excType_storable {type : Json} (h : type.storable = true) :
    PyStr.storable (excType rt type) = true := by
  unfold excType
  split
  · exact h
  · split_ifs
    · exact rt.str_storable _
    · decide

/-- A title can always be derived, and from a storable document it is a `text` value. -/
theorem deriveTitle_ok (rt : Runtime) (d : Dict) : ∃ title, deriveTitle rt d = .ok title ∧
    (Json.storableFields d = true → PyStr.storable title = true) := by
  unfold deriveTitle
  split
  · next exception hexc =>
      obtain ⟨line, hline, hstorable⟩ := firstLine_ok (Dict.get exception "value")
      simp only [hline, bind, Except.bind, pure, Except.pure]
      refine ⟨_, rfl, fun hd => truncateString_storable ?_ _⟩
      have hfields := get_obj_storable hd hexc
      have htype : PyStr.storable (excType rt (Dict.get exception "type")) = true :=
        excType_storable (get_storable hfields _)
      have hfirst := hstorable (get_storable hfields _)
      by_cases hempty : line.isEmpty = true
      · rw [if_pos hempty]
        exact htype
      · rw [if_neg hempty]
        exact storable_append (storable_append htype (by decide)) hfirst
  · obtain ⟨line, hline, hstorable⟩ := firstLine_ok (d.get "message")
    simp only [hline, bind, Except.bind, pure, Except.pure]
    exact ⟨_, rfl, fun hd => truncateString_storable (hstorable (get_storable hd _)) _⟩

end Pure

end Crashlens
