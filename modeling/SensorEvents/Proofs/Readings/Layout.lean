import SensorEvents.Proofs.Readings.Grammar

/-!
# Traces that are written down

Rows in decimal, one to a line, with separators of any kind and length between the numbers and with
lines of any kind between the rows, as long as these are no content. A text of such lines is read as
its rows.
-/
namespace SensorEvents

/-- The numbers of a row fit the words they are kept in. -/
def TraceRow.Fits (row : TraceRow) : Prop :=
  row.time ≤ Checked.max64 ∧ ∀ value ∈ row.values, value ≤ Checked.max32

namespace Trace

open Text (withoutReturn eq_withoutReturn)

/-- Numbers in decimal, with separators in front of each and perhaps at the end. -/
inductive Gapped : List Nat → List Char → Prop
  | nil {gap : List Char} (hgap : ∀ c ∈ gap, isSeparator c = true) : Gapped [] gap
  | cons {gap later : List Char} {n : Nat} {ns : List Nat} (hne : gap ≠ [])
    (hgap : ∀ c ∈ gap, isSeparator c = true) (hlater : Gapped ns later) :
    Gapped (n :: ns) (gap ++ (Nat.toDigits 10 n ++ later))

/-- A row in decimal. -/
inductive WrittenRow (row : TraceRow) : List Char → Prop
  | intro {gap later : List Char} (hgap : ∀ c ∈ gap, isSeparator c = true)
    (hvalues : Gapped row.values later) :
    WrittenRow row (gap ++ (Nat.toDigits 10 row.time ++ later))

/-- Rows one to a line, with lines between them that are no content. -/
inductive Written : List TraceRow → List (List Char) → Prop
  | nil : Written [] []
  | row {row : TraceRow} {rows : List TraceRow} {line : List Char} {lines : List (List Char)}
    (hrow : WrittenRow row line) (hlater : Written rows lines) :
    Written (row :: rows) (line :: lines)
  | filler {rows : List TraceRow} {line : List Char} {lines : List (List Char)}
    (hline : ¬ IsContent line) (hlater : Written rows lines) : Written rows (line :: lines)

/-! ## A row -/

theorem isSeparator_of_isDigit {c : Char} (h : c.isDigit = true) : isSeparator c = false := by
  have hbounds : 48 ≤ c.toNat ∧ c.toNat ≤ 57 := Char.isDigit_iff_toNat.mp h
  have hcomma : c ≠ ',' := by
    rintro rfl
    exact absurd h (by decide)
  have hblank : Text.isBlank c = false := by
    rw [Bool.eq_false_iff]
    intro hblank
    simp only [Text.isBlank, Bool.or_eq_true, Bool.and_eq_true, decide_eq_true_eq] at hblank
    omega
  simp [isSeparator, hcomma, hblank]

theorem isSeparator_of_mem_toDigits {n : Nat} : ∀ c ∈ Nat.toDigits 10 n, isSeparator c = false :=
  fun _ hc => isSeparator_of_isDigit (Nat.isDigit_of_mem_toDigits (by decide) (by decide) hc)

/-- Separators, a number, and what comes after it. -/
theorem words_number {gap later : List Char} (n : Nat) (hgap : ∀ c ∈ gap, isSeparator c = true)
    (hlater : ∀ c ∈ later.head?, isSeparator c = true) :
    words (gap ++ (Nat.toDigits 10 n ++ later)) = Nat.toDigits 10 n :: words later := by
  rw [← tokens_eq, ← tokens_eq]
  exact (Text.wordsBy_gap_append hgap _).trans
    (Text.wordsBy_word_append Nat.toDigits_ne_nil isSeparator_of_mem_toDigits hlater)

theorem Gapped.words_eq {ns : List Nat} {text : List Char} (h : Gapped ns text) :
    (∀ c ∈ text.head?, isSeparator c = true) ∧ words text = ns.map (Nat.toDigits 10) := by
  induction h with
  | nil hgap =>
    refine ⟨fun c hc => hgap c (List.mem_of_head? hc), ?_⟩
    rw [← tokens_eq]
    exact Text.wordsBy_gap hgap
  | cons hne hgap hlater ih =>
    refine ⟨fun c hc => ?_, ?_⟩
    · rw [List.head?_append_of_ne_nil _ hne] at hc
      exact hgap c (List.mem_of_head? hc)
    · rw [words_number _ hgap ih.1, ih.2]
      rfl

theorem Gapped.written {ns : List Nat} {text : List Char} (h : Gapped ns text) :
    ∀ c ∈ text, isSeparator c = true ∨ c.isDigit = true := by
  induction h with
  | nil hgap => exact fun c hc => .inl (hgap c hc)
  | cons hne hgap hlater ih =>
    intro c hc
    rcases List.mem_append.mp hc with hc | hc
    · exact .inl (hgap c hc)
    rcases List.mem_append.mp hc with hc | hc
    · exact .inr (Nat.isDigit_of_mem_toDigits (by decide) (by decide) hc)
    · exact ih c hc

namespace WrittenRow

variable {row : TraceRow} {line : List Char}

theorem reads (h : WrittenRow row line) (hfits : row.Fits) (hne : row.values ≠ []) :
    Reads line row := by
  obtain ⟨hgap, hvalues⟩ := h
  obtain ⟨hhead, hwords⟩ := hvalues.words_eq
  refine ⟨⟨Nat.toDigits 10 row.time, row.values.map (Nat.toDigits 10), ?_,
    Text.spells_toDigits hfits.1, ?_⟩, hne⟩
  · rw [words_number _ hgap hhead, hwords]
  · rw [List.forall₂_map_left_iff, List.forall₂_same]
    exact fun value hvalue => Text.spells_toDigits (hfits.2 value hvalue)

/-- A row has digits and separators, and no comment begins with these. -/
theorem isContent (h : WrittenRow row line) : IsContent line := by
  obtain ⟨hgap, hvalues⟩ := h
  rename_i gap later
  refine isContent_iff.mpr ⟨?_, ?_⟩
  · have hall : Gapped (row.time :: row.values)
        ((' ' :: gap) ++ (Nat.toDigits 10 row.time ++ later)) :=
      .cons (List.cons_ne_nil _ _) (List.forall_mem_cons.mpr ⟨by decide, hgap⟩) hvalues
    unfold isComment
    rw [decide_eq_false_iff_not]
    intro hcomment
    have hmem := (List.dropWhile_suffix _).subset (List.mem_of_head? hcomment)
    rcases hall.written '#' (List.mem_cons_of_mem _ hmem) with hbad | hbad
    · exact absurd hbad (by decide)
    · exact absurd hbad (by decide)
  · rw [words_number _ hgap hvalues.words_eq.1]
    exact List.cons_ne_nil _ _

end WrittenRow

/-! ## A text -/

/-- Lines that differ in nothing a trace depends on. -/
def Alike (line line' : List Char) : Prop :=
  words line' = words line ∧ isComment line' = isComment line

theorem Alike.isContent_iff {line line' : List Char} (h : Alike line line') :
    IsContent line' ↔ IsContent line := by
  rw [Trace.isContent_iff, Trace.isContent_iff, h.1, h.2]

theorem Alike.reads {line line' : List Char} {row : TraceRow} (h : Alike line line')
    (hreads : Reads line row) : Reads line' row :=
  ⟨h.1 ▸ hreads.spelled, hreads.nonempty⟩

theorem alike_append_return (line : List Char) : Alike (line ++ ['\r']) line := by
  have hreturn : ∀ c ∈ ['\r'], isSeparator c = true := List.forall_mem_singleton.mpr rfl
  refine ⟨?_, ?_⟩
  · rw [← tokens_eq, ← tokens_eq]
    exact (Text.wordsBy_append_gap line hreturn).symm
  · unfold isComment
    rw [List.dropWhile_append]
    cases hdrop : line.dropWhile Text.isBlank with
    | nil => rfl
    | cons c later => rfl

/-- A carriage return at the end of a line does not matter. -/
theorem alike_withoutReturn (line : List Char) : Alike line (withoutReturn line) := by
  have heq := eq_withoutReturn line
  generalize withoutReturn line = kept at heq
  obtain rfl | rfl := heq
  · exact ⟨rfl, rfl⟩
  · exact alike_append_return kept

theorem forall₂_reads_of_alike {lines lines' : List (List Char)} {rows : List TraceRow}
    (h : List.Forall₂ Alike lines lines')
    (hreads : List.Forall₂ Reads (lines.filter IsContent) rows) :
    List.Forall₂ Reads (lines'.filter IsContent) rows := by
  induction h generalizing rows with
  | nil => exact hreads
  | cons halike _ ih =>
    rw [List.filter_cons] at hreads ⊢
    simp only [decide_eq_true_eq, halike.isContent_iff] at hreads ⊢
    split_ifs at hreads ⊢
    · obtain ⟨row, rows, hrow, hrows, rfl⟩ := List.forall₂_cons_left_iff.mp hreads
      exact .cons (halike.reads hrow) (ih hrows)
    · exact ih hreads

theorem map_fst_contentFrom (n : Nat) (lines : List (List Char)) :
    (contentFrom n lines).map Prod.fst = lines.filter IsContent := by
  induction lines generalizing n with
  | nil => rfl
  | cons line lines ih =>
    rw [contentFrom_cons, List.filter_cons]
    simp only [decide_eq_true_eq]
    split_ifs
    · rw [List.map_cons, ih]
    · exact ih (n + 1)

/-- Lines that are put one under the other, as they are seen in the text. -/
theorem forall₂_reads_of_lines {lines : List (List Char)} {last : List Char}
    (hbreaks : ∀ line ∈ lines ++ [last], '\n' ∉ line) {rows : List TraceRow}
    (hreads : List.Forall₂ Reads ((lines ++ [last]).filter IsContent) rows) :
    List.Forall₂ (fun entry row => Reads entry.1 row)
      (content (String.ofList (['\n'].intercalate (lines ++ [last])))) rows := by
  have hlines := Text.lines_intercalate hbreaks
  have halike : List.Forall₂ Alike lines (lines.map withoutReturn) := by
    rw [List.forall₂_map_right_iff, List.forall₂_same]
    exact fun line _ => alike_withoutReturn line
  have hkept : List.Forall₂ Reads ((Text.lines (['\n'].intercalate (lines ++ [last]))).filter
      IsContent) rows := by
    rw [hlines]
    split_ifs with hlast
    · obtain rfl := List.isEmpty_iff.mp hlast
      have hnothing : ([[]] : List (List Char)).filter IsContent = [] := by decide
      rw [List.filter_append, hnothing, List.append_nil] at hreads
      rw [List.append_nil]
      exact forall₂_reads_of_alike halike hreads
    · exact forall₂_reads_of_alike (List.rel_append halike (.cons ⟨rfl, rfl⟩ .nil)) hreads
  rw [← map_fst_contentFrom 1, List.forall₂_map_left_iff] at hkept
  unfold content
  rw [String.toList_ofList]
  exact hkept

theorem Written.reads {rows : List TraceRow} {lines : List (List Char)} (h : Written rows lines)
    (hfits : ∀ row ∈ rows, row.Fits ∧ row.values ≠ []) :
    List.Forall₂ Reads (lines.filter IsContent) rows := by
  induction h with
  | nil => exact .nil
  | row hrow hlater ih =>
    obtain ⟨⟨hrowFits, hne⟩, hfits⟩ := List.forall_mem_cons.mp hfits
    rw [List.filter_cons]
    simp only [decide_eq_true_eq, hrow.isContent, if_true]
    exact .cons (hrow.reads hrowFits hne) (ih hfits)
  | filler hline hlater ih =>
    rw [List.filter_cons]
    simp only [decide_eq_true_eq, hline, if_false]
    exact ih hfits

/-- Rows that are written down are read back. -/
theorem ofText_of_written {first : TraceRow} {later : List TraceRow} {lines : List (List Char)}
    (hwritten : Written (first :: later) lines) (hbreaks : ∀ line ∈ lines, '\n' ∉ line)
    (hfits : ∀ row ∈ first :: later, row.Fits ∧ row.values ≠ [])
    (huniform : Uniform (first :: later)) :
    ofText (String.ofList (['\n'].intercalate lines)) = .ok ⟨first, later⟩ := by
  have hne : lines ≠ [] := by
    rintro rfl
    nomatch hwritten
  obtain ⟨earlier, last, rfl⟩ : ∃ earlier last, lines = earlier ++ [last] :=
    ⟨_, _, (List.dropLast_append_getLast hne).symm⟩
  exact ofText_of_denotes ⟨forall₂_reads_of_lines hbreaks (hwritten.reads hfits), huniform⟩

/-! ## All texts -/

theorem exists_ofText_eq_ok {text : String} :
    (∃ t, ofText text = .ok t) ↔ content text ≠ [] ∧ ∃ rows, Denotes (content text) rows := by
  constructor
  · rintro ⟨t, ht⟩
    have hdenotes := ofText_eq_ok.mp ht
    refine ⟨fun hnil => ?_, t.rows, hdenotes⟩
    have hrows := hdenotes.reads
    rw [hnil, List.forall₂_nil_left_iff] at hrows
    exact absurd hrows (List.cons_ne_nil _ _)
  · rintro ⟨hne, rows, hrows⟩
    cases rows with
    | nil => exact absurd (List.forall₂_nil_right_iff.mp hrows.reads) hne
    | cons first later => exact ⟨⟨first, later⟩, ofText_eq_ok.mpr hrows⟩

theorem ofText_eq_error_empty {text : String} :
    ofText text = .error .empty ↔ content text = [] := by
  rw [ofText_eq_error]
  constructor
  · generalize content text = entries
    rintro (_ | ⟨_, hline⟩)
    · rfl
    · nomatch hline
  · intro hnil
    rw [hnil]
    exact .empty

/-- A text is a trace just when it has content and its content stands for rows, which are the rows of
the trace. Any other text is refused for the first line of its content that offends, or for having no
content at all. So rows that are written down are read back, whatever stands between their numbers
and lines. -/
theorem grammar_exact (text : String) :
    ((∃ t, ofText text = .ok t) ↔ content text ≠ [] ∧ ∃ rows, Denotes (content text) rows) ∧
    (∀ t, ofText text = .ok t ↔ Denotes (content text) t.rows) ∧
    (∀ t, ofText text = .ok t → ∀ row ∈ t.rows, row.values.length = t.columns) ∧
    (∀ e, ofText text = .error e ↔ Refused (content text) e) ∧
    (ofText text = .error .empty ↔ content text = []) ∧
    (∀ (first : TraceRow) (later : List TraceRow) (lines : List (List Char)),
      Written (first :: later) lines → (∀ line ∈ lines, '\n' ∉ line) →
      (∀ row ∈ first :: later, row.Fits ∧ row.values ≠ []) → Uniform (first :: later) →
      text.toList = ['\n'].intercalate lines → ofText text = .ok ⟨first, later⟩) := by
  refine ⟨exists_ofText_eq_ok, fun _ => ofText_eq_ok,
    fun _ ht => (ofText_eq_ok.mp ht).uniform.columns_eq, fun _ => ofText_eq_error,
    ofText_eq_error_empty, fun first later lines hwritten hbreaks hfits huniform htext => ?_⟩
  rw [← String.ofList_toList (s := text), htext]
  exact ofText_of_written hwritten hbreaks hfits huniform

theorem padsText_read :
    ofText "# pads\n 0,\t10\n\n5 , 11\r" = .ok ⟨⟨0, [10]⟩, [⟨5, [11]⟩]⟩ := by
  refine (grammar_exact _).2.2.2.2.2 _ _
    ["# pads".toList, [' '] ++ (Nat.toDigits 10 0 ++ ([',', '\t'] ++ (Nat.toDigits 10 10 ++ []))), [],
      [] ++ (Nat.toDigits 10 5 ++ ([' ', ',', ' '] ++ (Nat.toDigits 10 11 ++ ['\r'])))]
    ?_ (by decide) ?_ ?_ (by decide)
  · have hspace : ∀ c ∈ [' '], isSeparator c = true := List.forall_mem_singleton.mpr rfl
    have hreturn : ∀ c ∈ ['\r'], isSeparator c = true := List.forall_mem_singleton.mpr rfl
    have hcomma : ∀ c ∈ [',', '\t'], isSeparator c = true := by simp [isSeparator, Text.isBlank]
    have hcommas : ∀ c ∈ [' ', ',', ' '], isSeparator c = true := by
      simp [isSeparator, Text.isBlank]
    exact .filler (by decide)
      (.row ⟨hspace, .cons (List.cons_ne_nil _ _) hcomma (.nil (List.forall_mem_nil _))⟩
        (.filler (by decide)
          (.row ⟨List.forall_mem_nil _, .cons (List.cons_ne_nil _ _) hcommas (.nil hreturn)⟩ .nil)))
  · simp [TraceRow.Fits, Checked.max64, Checked.max32]
  · exact ⟨⟨1, by decide⟩, by decide⟩

example : ofText "0 1\n# pads\n5 x -1\n" = .error (.number 3 "x") := by rfl

end Trace

end SensorEvents
