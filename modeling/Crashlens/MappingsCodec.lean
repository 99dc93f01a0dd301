import Crashlens.Library.StableSort
import Crashlens.PathNames
import Crashlens.VlqCodec

/-!
# The mappings of a source map

A table has a row of mappings for each generated line, with absolute positions. Encoding writes down
the differences: of the generated column to the mapping before on the line, of everything else to
the last mapping before in the whole file that has it. `parseSourceMap` adds them up again, and each
line of what it returns is the mappings of the row that have a source, stably sorted by column.
-/

namespace Crashlens

open StableSort

/-! ## The encoding -/

/-- A mapping of the generated column alone, or one that has a source. -/
inductive Mapping where
  | generated (genCol : ℤ)
  | original (seg : Segment)

namespace Mapping

def genCol : Mapping → ℤ
  | .generated genCol => genCol
  | .original seg => seg.genCol

def segment? : Mapping → Option Segment
  | .generated _ => none
  | .original seg => some seg

/-- One field, four fields, or five with a name. -/
def fields (cur : MapCursor) (prevCol : ℤ) : Mapping → List ℤ
  | .generated genCol => [genCol - prevCol]
  | .original seg =>
    [seg.genCol - prevCol, seg.srcIndex - cur.srcIndex, seg.origLine - cur.origLine,
      seg.origCol - cur.origCol] ++ (seg.nameIndex.map (· - cur.nameIndex)).toList

def after (cur : MapCursor) : Mapping → MapCursor
  | .generated _ => cur
  | .original seg =>
    ⟨seg.srcIndex, seg.origLine, seg.origCol, seg.nameIndex.getD cur.nameIndex⟩

end Mapping

def encodeSegments : List Mapping → MapCursor → (prevCol : ℤ) → List PyStr
  | [], _, _ => []
  | mp :: row, cur, prevCol =>
    encodeVlq (mp.fields cur prevCol) :: encodeSegments row (mp.after cur) mp.genCol

def encodeRow (row : List Mapping) (cur : MapCursor) : PyStr :=
  [comma].intercalate (encodeSegments row cur 0)

def encodeRows : List (List Mapping) → MapCursor → List PyStr
  | [], _ => []
  | row :: rows, cur => encodeRow row cur :: encodeRows rows (row.foldl Mapping.after cur)

def encodeMappings (table : List (List Mapping)) : PyStr :=
  [semicolon].intercalate (encodeRows table {})

/-! ## What is parsed of it -/

/-- The segments of a line denote these mappings; an empty one denotes none. -/
inductive DenotesRow : List PyStr → MapCursor → (prevCol : ℤ) → List Mapping → Prop
  | nil {cur : MapCursor} {prevCol : ℤ} : DenotesRow [] cur prevCol []
  | skip {parts : List PyStr} {cur : MapCursor} {prevCol : ℤ} {row : List Mapping}
      (hrest : DenotesRow parts cur prevCol row) : DenotesRow ([] :: parts) cur prevCol row
  | cons {part : PyStr} {parts : List PyStr} {cur : MapCursor} {prevCol : ℤ} {mp : Mapping}
      {row : List Mapping} (hpart : decodeVlq part = .ok (mp.fields cur prevCol))
      (hrest : DenotesRow parts (mp.after cur) mp.genCol row) :
      DenotesRow (part :: parts) cur prevCol (mp :: row)

/-- The lines of a file denote these rows. -/
inductive DenotesRows : List PyStr → MapCursor → List (List Mapping) → Prop
  | nil {cur : MapCursor} : DenotesRows [] cur []
  | cons {line : PyStr} {lines : List PyStr} {cur : MapCursor} {row : List Mapping}
      {table : List (List Mapping)} (hrow : DenotesRow (splitOn comma line) cur 0 row)
      (hrest : DenotesRows lines (row.foldl Mapping.after cur) table) :
      DenotesRows (line :: lines) cur (row :: table)

/-- The mappings string denotes this table, of one, four or five fields each. -/
def Denotes (mappings : PyStr) (table : List (List Mapping)) : Prop :=
  DenotesRows (splitOn semicolon mappings) {} table

/-- The row of a generated line. -/
def rowAt (table : List (List Mapping)) (line : ℤ) : List Mapping :=
  if 0 ≤ line then table.getD line.toNat [] else []

def originals (row : List Mapping) : List Segment := row.filterMap Mapping.segment?

/-- The parsed segments of a generated line. -/
def SourceMap.segmentsAt (m : SourceMap) (line : ℤ) : List Segment := (m.lines.lookup line).getD []

section Split

variable {sep : CodePoint}

theorem splitOn_intercalate {parts : List PyStr} (hne : parts ≠ [])
    (h : ∀ part ∈ parts, sep ∉ part) : splitOn sep ([sep].intercalate parts) = parts := by
  induction parts with
  | nil => exact absurd rfl hne
  | cons part parts ih =>
      rw [List.forall_mem_cons] at h
      cases parts with
      | nil =>
          rw [List.intercalate_singleton]
          exact splitOn_of_not_mem h.1
      | cons part' parts =>
          have hrest := ih (List.cons_ne_nil _ _) h.2
          rw [List.intercalate_cons_cons, List.append_assoc, List.singleton_append,
            splitOn_append, splitOn_of_not_mem h.1, hrest]
          rfl

theorem mem_intercalate {parts : List PyStr} {c : CodePoint}
    (h : c ∈ [sep].intercalate parts) : c = sep ∨ ∃ part ∈ parts, c ∈ part := by
  induction parts with
  | nil => cases h
  | cons part parts ih =>
      cases parts with
      | nil =>
          rw [List.intercalate_singleton] at h
          exact .inr ⟨part, List.mem_cons_self, h⟩
      | cons part' parts =>
          rw [List.intercalate_cons_cons, List.append_assoc, List.mem_append,
            List.singleton_append, List.mem_cons] at h
          obtain hpart | hsep | hrest := h
          · exact .inr ⟨part, List.mem_cons_self, hpart⟩
          · exact .inl hsep
          · exact (ih hrest).imp_right fun ⟨p, hp, hc⟩ => ⟨p, List.mem_cons_of_mem _ hp, hc⟩

end Split

section Row

theorem mem_b64_of_mem_encodeVlq {values : List ℤ} {c : CodePoint} (h : c ∈ encodeVlq values) :
    c ∈ b64 := by
  obtain ⟨d, hd, rfl⟩ := List.mem_map.mp h
  obtain ⟨v, -, hv⟩ := List.mem_flatMap.mp hd
  have hlt := VariableLength.encode_lt (by decide) _ d hv
  by_contra hnot
  have hdigit := idxOf?_b64Digit hlt
  rw [idxOf?_eq_none.mpr hnot] at hdigit
  cases hdigit

theorem fields_ne_nil (mp : Mapping) (cur : MapCursor) (prevCol : ℤ) :
    mp.fields cur prevCol ≠ [] := by
  cases mp with
  | generated genCol => exact List.cons_ne_nil _ _
  | original seg => exact List.cons_ne_nil _ _

/-- One mapping: the differences added to where the reader was. -/
theorem readSegment_fields (mp : Mapping) (cur : MapCursor) (prevCol : ℤ) (row : List Segment) :
    readSegment (mp.fields cur prevCol) cur prevCol row =
      (mp.after cur, mp.genCol, row ++ mp.segment?.toList) := by
  cases mp with
  | generated genCol =>
      simp [Mapping.fields, readSegment, Mapping.after, Mapping.genCol, Mapping.segment?]
  | original seg =>
      obtain ⟨genCol, srcIndex, origLine, origCol, nameIndex⟩ := seg
      cases nameIndex with
      | none => simp [Mapping.fields, readSegment, Mapping.after, Mapping.genCol,
          Mapping.segment?]
      | some name => simp [Mapping.fields, readSegment, Mapping.after, Mapping.genCol,
          Mapping.segment?]

theorem readSegments_of_denotes {parts : List PyStr} {cur : MapCursor} {prevCol : ℤ}
    {mps : List Mapping} (h : DenotesRow parts cur prevCol mps) (row : List Segment) :
    readSegments parts cur prevCol row =
      .ok (mps.foldl Mapping.after cur, row ++ originals mps) := by
  induction h generalizing row with
  | nil =>
      rw [originals, List.filterMap_nil, List.append_nil]
      rfl
  | skip hrest ih => exact ih row
  | @cons part parts cur prevCol mp mps hpart hrest ih =>
      have hne : part ≠ [] := by
        rintro rfl
        exact fields_ne_nil mp cur prevCol (Except.ok.inj hpart).symm
      rw [readSegments]
      · rw [hpart]
        simp only [bind, Except.bind, readSegment_fields, ih, List.foldl_cons, originals,
          List.filterMap_cons]
        cases mp with
        | generated genCol => simp [Mapping.segment?]
        | original seg => simp [Mapping.segment?]
      · exact hne

theorem denotes_encodeSegments (mps : List Mapping) (cur : MapCursor) (prevCol : ℤ) :
    DenotesRow (encodeSegments mps cur prevCol) cur prevCol mps := by
  induction mps generalizing cur prevCol with
  | nil => exact .nil
  | cons mp mps ih => exact .cons (decodeVlq_encodeVlq _) (ih _ _)

theorem encodeSegments_mem {mps : List Mapping} {cur : MapCursor} {prevCol : ℤ} {part : PyStr}
    (h : part ∈ encodeSegments mps cur prevCol) : ∀ c ∈ part, c ∈ b64 := by
  induction mps generalizing cur prevCol with
  | nil => cases h
  | cons mp mps ih =>
      rw [encodeSegments, List.mem_cons] at h
      obtain rfl | h := h
      · exact fun c hc => mem_b64_of_mem_encodeVlq hc
      · exact ih h

theorem encodeSegments_ne_nil {mps : List Mapping} (h : mps ≠ []) (cur : MapCursor)
    (prevCol : ℤ) : encodeSegments mps cur prevCol ≠ [] := by
  obtain ⟨mp, mps, rfl⟩ := List.exists_cons_of_ne_nil h
  exact List.cons_ne_nil _ _

theorem denotes_encodeRow (row : List Mapping) (cur : MapCursor) :
    DenotesRow (splitOn comma (encodeRow row cur)) cur 0 row := by
  have hcomma : comma ∉ b64 := by decide +kernel
  by_cases hrow : row = []
  · subst hrow
    exact .skip .nil
  · have hsplit : splitOn comma (encodeRow row cur) = encodeSegments row cur 0 :=
      splitOn_intercalate (encodeSegments_ne_nil hrow cur 0) fun part hpart hmem =>
        hcomma (encodeSegments_mem hpart comma hmem)
    rw [hsplit]
    exact denotes_encodeSegments row cur 0

theorem semicolon_notMem_encodeRow (row : List Mapping) (cur : MapCursor) :
    semicolon ∉ encodeRow row cur := by
  have hsemicolon : semicolon ∉ b64 := by decide +kernel
  have hne : semicolon ≠ comma := by decide
  intro hmem
  obtain hcomma | ⟨part, hpart, hc⟩ := mem_intercalate hmem
  · exact hne hcomma
  · exact hsemicolon (encodeSegments_mem hpart semicolon hc)

end Row

section Rows

def sortedByColumn (row : List Segment) : List Segment :=
  row.insertionSort fun a b => a.genCol ≤ b.genCol

/-- The lines that have an original position, from a generated line on. -/
def parsedRows : List (List Mapping) → (genLine : ℤ) → List (ℤ × List Segment)
  | [], _ => []
  | row :: rows, genLine =>
    if (originals row).isEmpty then parsedRows rows (genLine + 1)
    else (genLine, sortedByColumn (originals row)) :: parsedRows rows (genLine + 1)

theorem readLines_of_denotes {lines : List PyStr} {cur : MapCursor} {table : List (List Mapping)}
    (h : DenotesRows lines cur table) (genLine : ℤ) :
    readLines lines genLine cur = .ok (parsedRows table genLine) := by
  induction h generalizing genLine with
  | nil => rfl
  | @cons line lines cur row table hrow hrest ih =>
      have hread := readSegments_of_denotes hrow []
      rw [List.nil_append] at hread
      rw [parsedRows]
      cases line with
      | nil =>
          obtain ⟨hcur, hrow⟩ := Prod.mk.inj (Except.ok.inj hread)
          have hempty : (originals row).isEmpty = true := by
            rw [← hrow]
            rfl
          rw [if_pos hempty, ← ih (genLine + 1), ← hcur]
          rfl
      | cons c cs =>
          rw [readLines]
          · rw [hread]
            simp only [bind, Except.bind, ih]
            split_ifs
            · rfl
            · rfl
          · exact List.cons_ne_nil c cs

theorem lookup_parsedRows (table : List (List Mapping)) (genLine line : ℤ) :
    ((parsedRows table genLine).lookup line).getD [] =
      if genLine ≤ line then
        sortedByColumn (originals (table.getD (line - genLine).toNat []))
      else [] := by
  induction table generalizing genLine with
  | nil =>
      rw [parsedRows, List.lookup_nil, Option.getD_none, List.getD_nil]
      split_ifs <;> rfl
  | cons row table ih =>
      rw [parsedRows]
      by_cases hline : line = genLine
      · subst hline
        rw [if_pos (le_refl line), sub_self, Int.toNat_zero, List.getD_cons_zero]
        split_ifs with hempty
        · rw [ih, if_neg (by omega), List.isEmpty_iff.mp hempty]
          rfl
        · rw [List.lookup_cons_self, Option.getD_some]
      · have hrest : ((parsedRows table (genLine + 1)).lookup line).getD [] =
            if genLine ≤ line then
              sortedByColumn (originals ((row :: table).getD (line - genLine).toNat []))
            else [] := by
          rw [ih]
          by_cases hle : genLine ≤ line
          · obtain ⟨n, hn⟩ := Int.eq_ofNat_of_zero_le (show 0 ≤ line - (genLine + 1) by omega)
            have hsucc : (line - genLine).toNat = n + 1 := by omega
            rw [if_pos hle, if_pos (by omega), hsucc, hn, List.getD_cons_succ]
            rfl
          · rw [if_neg hle, if_neg (by omega)]
        by_cases hempty : (originals row).isEmpty = true
        · rw [if_pos hempty]
          exact hrest
        · rw [if_neg hempty, List.lookup_cons, beq_eq_false_iff_ne.mpr hline]
          exact hrest

theorem denotes_encodeRows (table : List (List Mapping)) (cur : MapCursor) :
    DenotesRows (encodeRows table cur) cur table := by
  induction table generalizing cur with
  | nil => exact .nil
  | cons row table ih => exact .cons (denotes_encodeRow row cur) (ih _)

theorem semicolon_notMem_encodeRows (table : List (List Mapping)) (cur : MapCursor) :
    ∀ part ∈ encodeRows table cur, semicolon ∉ part := by
  induction table generalizing cur with
  | nil => exact fun part hpart => by cases hpart
  | cons row table ih =>
      rw [encodeRows, List.forall_mem_cons]
      exact ⟨semicolon_notMem_encodeRow row cur, ih _⟩

/-- No row is encoded as one empty row is. -/
theorem denotes_encodeMappings (table : List (List Mapping)) :
    Denotes (encodeMappings table) (if table = [] then [[]] else table) := by
  split_ifs with htable
  · subst htable
    exact .cons (.skip .nil) .nil
  · obtain ⟨row, rows, rfl⟩ := List.exists_cons_of_ne_nil htable
    have hsplit : splitOn semicolon (encodeMappings (row :: rows)) = encodeRows (row :: rows) {} :=
      splitOn_intercalate (List.cons_ne_nil _ _) (semicolon_notMem_encodeRows _ _)
    rw [Denotes, hsplit]
    exact denotes_encodeRows _ _

end Rows

/-! ## Parsing an encoded map -/

section Parse

/-- A document with these mappings, whose other fields are lists or left out. -/
structure Document (raw : Dict) (mappings : PyStr) : Prop where
  version : (Dict.get raw "version").equalsThree = true
  mappings : Dict.get raw "mappings" = .str mappings
  sources : ∃ sources, orEmptyList (Dict.get raw "sources") = .ok sources
  contents : ∃ contents, orEmptyList (Dict.get raw "sourcesContent") = .ok contents
  names : ∃ names, orEmptyList (Dict.get raw "names") = .ok names

variable {raw : Dict} {mappings : PyStr} {table : List (List Mapping)}

theorem Document.parse (h : Document raw mappings) (hdenotes : Denotes mappings table) :
    ∃ m, parseSourceMap (.obj raw) = .ok m ∧ m.lines = parsedRows table 0 := by
  obtain ⟨sources, hsources⟩ := h.sources
  obtain ⟨contents, hcontents⟩ := h.contents
  obtain ⟨names, hnames⟩ := h.names
  have hlines : readLines (splitOn semicolon mappings) 0 {} = .ok (parsedRows table 0) :=
    readLines_of_denotes hdenotes 0
  refine ⟨⟨sources.map strOrEmpty, contents.map strOrNone, names.map strOrEmpty,
    parsedRows table 0⟩, ?_, rfl⟩
  rw [parseSourceMap]
  simp only [h.version, h.mappings, hsources, hcontents, hnames, hlines, bind, Except.bind, pure,
    Except.pure, Bool.not_true, Bool.false_eq_true, if_false]

theorem segmentsAt_of_lines {m : SourceMap} (h : m.lines = parsedRows table 0) (line : ℤ) :
    m.segmentsAt line = sortedByColumn (originals (rowAt table line)) := by
  rw [SourceMap.segmentsAt, h, lookup_parsedRows, rowAt, sub_zero]
  split_ifs
  · rfl
  · rfl

theorem stablySorted_segmentsAt {m : SourceMap} (h : m.lines = parsedRows table 0) (line : ℤ) :
    StablySorted Segment.genCol (originals (rowAt table line)) (m.segmentsAt line) := by
  rw [segmentsAt_of_lines h]
  exact stablySorted_insertionSort Segment.genCol _

theorem lookup_eq {m : SourceMap} (h : m.lines = parsedRows table 0) (line col : ℤ) :
    m.lookup line col = ((m.segmentsAt line).filter fun seg => seg.genCol ≤ col).getLast? :=
  congrArg List.getLast? (takeWhile_eq_filter (stablySorted_segmentsAt h line).sorted col)

theorem rowAt_of_empty (line : ℤ) : rowAt (if table = [] then [[]] else table) line =
    rowAt table line := by
  split_ifs with htable
  · subst htable
    unfold rowAt
    split_ifs
    · cases line.toNat with
      | zero => rfl
      | succ n => rfl
    · rfl
  · rfl

/-- Parsing takes the encoding back: each line has the mappings of its row that have a source, in
the order of their columns, and a position is looked up in the last of them up to its column. -/
theorem parseSourceMap_encodeMappings (h : Document raw (encodeMappings table)) :
    ∃ m, parseSourceMap (.obj raw) = .ok m ∧ ∀ line,
      StablySorted Segment.genCol (originals (rowAt table line)) (m.segmentsAt line) ∧
      ∀ col, m.lookup line col =
        ((m.segmentsAt line).filter fun seg => seg.genCol ≤ col).getLast? := by
  obtain ⟨m, hparse, hlines⟩ := h.parse (denotes_encodeMappings table)
  refine ⟨m, hparse, fun line => ⟨?_, lookup_eq hlines line⟩⟩
  rw [← rowAt_of_empty]
  exact stablySorted_segmentsAt hlines line

/-- A map of three lines: two segments out of order, none, and one with a name. -/
def sampleTable : List (List Mapping) :=
  [[.original ⟨8, 0, 2, 4, none⟩, .generated 12, .original ⟨3, 1, 0, 0, none⟩], [],
    [.original ⟨0, 0, 7, 1, some 1⟩]]

def sampleDocument (mappings : PyStr) : Dict :=
  [(py "version", .int 3), (py "sources", .arr [.str (py "src/a.ts"), .str (py "src/b.ts")]),
    (py "names", .arr [.str (py "f"), .str (py "g")]), (py "mappings", .str mappings)]

theorem document_sampleDocument (mappings : PyStr) : Document (sampleDocument mappings) mappings :=
  ⟨rfl, rfl, ⟨_, rfl⟩, ⟨_, rfl⟩, ⟨_, rfl⟩⟩

example : encodeMappings sampleTable = py "QAEI,I,TCFJ;;ADOCC" := by decide +kernel

theorem sampleTable_parsed :
    ∃ m, parseSourceMap (.obj (sampleDocument (encodeMappings sampleTable))) = .ok m ∧ ∀ line,
      StablySorted Segment.genCol (originals (rowAt sampleTable line)) (m.segmentsAt line) ∧
      ∀ col, m.lookup line col =
        ((m.segmentsAt line).filter fun seg => seg.genCol ≤ col).getLast? :=
  parseSourceMap_encodeMappings (document_sampleDocument _)

end Parse

/-! ## Generated code without a source -/

section Unmapped

/-- A mapping of the row with the greatest column up to `col`. -/
def Governs (row : List Mapping) (col : ℤ) (mp : Mapping) : Prop :=
  mp ∈ row ∧ mp.genCol ≤ col ∧ ∀ mp' ∈ row, mp'.genCol ≤ col → mp'.genCol ≤ mp.genCol

/-- The map is asked for this generated position on behalf of the frame. -/
def FrameAt (frame : Dict) (line col : ℤ) : Prop :=
  ∃ lineno colno, asInt (frame.get "lineno") = some lineno ∧
    asInt (frame.get "colno") = some colno ∧ lineno - 1 = line ∧ max (colno - 1) 0 = col

/-- The position has no original, and a frame there is left as it was. -/
def StaysUnmapped (m : SourceMap) (line col : ℤ) : Prop :=
  m.lookup line col = none ∧ ∀ frame, FrameAt frame line col → symbolicateFrame frame m = frame

variable {raw : Dict} {mappings : PyStr} {table : List (List Mapping)}

theorem staysUnmapped_of_lookup {m : SourceMap} {line col : ℤ} (h : m.lookup line col = none) :
    StaysUnmapped m line col := by
  refine ⟨h, fun frame ⟨lineno, colno, hlineno, hcolno, hline, hcol⟩ => ?_⟩
  unfold symbolicateFrame
  rw [hlineno, hcolno]
  dsimp only
  rw [hline, hcol, h]

theorem lookup_eq_none_iff {m : SourceMap} (h : m.lines = parsedRows table 0) (line col : ℤ) :
    m.lookup line col = none ↔ ∀ seg ∈ originals (rowAt table line), col < seg.genCol := by
  have hperm := (stablySorted_segmentsAt h line).perm
  rw [lookup_eq h, List.getLast?_eq_none_iff, List.filter_eq_nil_iff]
  constructor
  · intro hnone seg hseg
    exact not_le.mp fun hle => hnone seg (hperm.mem_iff.mpr hseg) (decide_eq_true hle)
  · intro hbeyond seg hseg hle
    exact not_le.mpr (hbeyond seg (hperm.mem_iff.mp hseg)) (of_decide_eq_true hle)

/-- Where a mapping of the generated column alone governs a position, the position stays unmapped
exactly when no mapping of the line that has a source comes at its column or before. -/
theorem staysUnmapped_iff (h : Document raw mappings) (hdenotes : Denotes mappings table)
    (line col : ℤ) :
    ∃ m, parseSourceMap (.obj raw) = .ok m ∧
      ((∀ genCol, Governs (rowAt table line) col (.generated genCol) →
          StaysUnmapped m line col) ↔
        ((∃ genCol, Governs (rowAt table line) col (.generated genCol)) →
          ∀ seg ∈ originals (rowAt table line), col < seg.genCol)) := by
  obtain ⟨m, hparse, hlines⟩ := h.parse hdenotes
  have hstays : StaysUnmapped m line col ↔
      ∀ seg ∈ originals (rowAt table line), col < seg.genCol := by
    rw [← lookup_eq_none_iff hlines]
    exact ⟨fun h => h.1, staysUnmapped_of_lookup⟩
  refine ⟨m, hparse, ?_⟩
  rw [hstays]
  exact ⟨fun h ⟨genCol, hgoverns⟩ => h genCol hgoverns,
    fun h genCol hgoverns => h ⟨genCol, hgoverns⟩⟩

/-- A source up to column 1, and code of the bundler from column 2 on. -/
def glueTable : List (List Mapping) := [[.original ⟨0, 0, 0, 0, none⟩, .generated 2]]

theorem denotes_glueTable : Denotes (py "AAAA,E") glueTable := by
  have hencode : encodeMappings glueTable = py "AAAA,E" := by decide +kernel
  rw [← hencode]
  exact denotes_encodeMappings glueTable

theorem governs_glueTable : Governs (rowAt glueTable 0) 5 (.generated 2) := by
  refine ⟨by simp [rowAt, glueTable], by decide, fun mp hmp _ => ?_⟩
  simp only [rowAt, glueTable, le_refl, if_true, Int.toNat_zero, List.getD_cons_zero,
    List.mem_cons, List.not_mem_nil, or_false] at hmp
  obtain rfl | rfl := hmp
  · decide
  · decide

theorem glueTable_position :
    ∃ m, parseSourceMap (.obj (sampleDocument (py "AAAA,E"))) = .ok m ∧
      ((∀ genCol, Governs (rowAt glueTable 0) 5 (.generated genCol) → StaysUnmapped m 0 5) ↔
        ((∃ genCol, Governs (rowAt glueTable 0) 5 (.generated genCol)) →
          ∀ seg ∈ originals (rowAt glueTable 0), 5 < seg.genCol)) :=
  staysUnmapped_iff (document_sampleDocument _) denotes_glueTable 0 5

/-- The code of the bundler is taken for the first line of the source. -/
theorem glue_is_mapped :
    ∃ m, parseSourceMap (.obj (sampleDocument (py "AAAA,E"))) = .ok m ∧
      Denotes (py "AAAA,E") glueTable ∧ Governs (rowAt glueTable 0) 5 (.generated 2) ∧
      m.lookup 0 5 = some ⟨0, 0, 0, 0, none⟩ ∧ ¬ StaysUnmapped m 0 5 := by
  have hfound : (parseSourceMap (.obj (sampleDocument (py "AAAA,E")))).toOption.bind
      (fun m => m.lookup 0 5) = some ⟨0, 0, 0, 0, none⟩ := by decide +kernel
  obtain ⟨m, hm, hlookup⟩ := Option.bind_eq_some_iff.mp hfound
  refine ⟨m, toOption_eq_some hm, denotes_glueTable, governs_glueTable, hlookup, fun hstays => ?_⟩
  cases hlookup.symm.trans hstays.1

end Unmapped

end Crashlens
