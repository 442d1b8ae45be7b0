import SensorEvents.Proofs.Config.Validation
import SensorEvents.Proofs.Text.Words

/-!
# The grammar of traces

A line of a trace is content unless it is blank, a comment or separators only. The grammar says which
rows the content of a text stands for; `Offends` says what is wrong with a line that breaks it, and of
two things wrong with a line which one counts. A text is a trace just when its content has rows, and
the error of any other is that of its first line that offends. Rows that are written down one to a
line, with anything between them that is no content, are read back.
-/
namespace SensorEvents.Trace

open Text (Spells unsigned?_eq_some)

/-! ## Lines -/

/-- Whether a character separates the words of a line. -/
def isSeparator (c : Char) : Bool := c = ',' || Text.isBlank c

/-- The words between the separators of a line. -/
def words (line : List Char) : List (List Char) :=
  (line.splitOnP isSeparator).filter (!·.isEmpty)

/-- A line that has to be a row: something is left of it when it is trimmed, this does not begin
with a number sign, and there is a word in it. -/
def IsContent (line : List Char) : Prop :=
  Text.trim line ≠ [] ∧ (Text.trim line).head? ≠ some '#' ∧ words (Text.trim line) ≠ []

instance : DecidablePred IsContent := fun _ => inferInstanceAs (Decidable (_ ∧ _ ∧ _))

/-- The words of a line are a time and one or more readings. -/
structure Reads (line : List Char) (row : TraceRow) : Prop where
  spelled : ∃ time samples, words line = time :: samples ∧ Spells Checked.max64 time row.time ∧
    List.Forall₂ (Spells Checked.max32) samples row.values
  nonempty : row.values ≠ []

/-- Rows that can stand one under the other. -/
structure Uniform (rows : List TraceRow) : Prop where
  even : ∃ count, ∀ row ∈ rows, row.values.length = count
  ordered : (rows.map TraceRow.time).Pairwise (· ≤ ·)

/-- The content among lines, each with its number; the first line has number `line`. -/
def contentFrom (line : Nat) (lines : List (List Char)) : List (List Char × Nat) :=
  (lines.zipIdx line).filter fun entry => IsContent entry.1

def content (text : String) : List (List Char × Nat) := contentFrom 1 (Text.lines text.toList)

/-- The rows that content stands for. -/
structure Denotes (content : List (List Char × Nat)) (rows : List TraceRow) : Prop where
  reads : List.Forall₂ (fun entry row => Reads entry.1 row) content rows
  uniform : Uniform rows

/-- The largest number that the word of a line at a position can be. -/
def limitAt : Nat → Nat
  | 0 => Checked.max64
  | _ + 1 => Checked.max32

/-- A word that is a number, of whatever value. -/
def Legible (limit : Nat) (word : List Char) : Prop := ∃ n, Spells limit word n

/-- What is wrong with line `n` when the rows before it are in order. A word that is no number comes
first, and the first one of them; then that there is no reading, then how many there are, and then the
time. -/
inductive Offends (before : List TraceRow) (line : List Char) (n : Nat) : TraceError → Prop
  | number {good later : List (List Char)} {token : List Char}
    (hwords : words line = good ++ token :: later)
    (hgood : ∀ i word, good[i]? = some word → Legible (limitAt i) word)
    (hbad : ¬ Legible (limitAt good.length) token) :
    Offends before line n (.number n (String.ofList token))
  | missingSamples {time : List Char} (hwords : words line = [time])
    (htime : Legible Checked.max64 time) : Offends before line n (.missingSamples n)
  | columns {row first : TraceRow} (hreads : Reads line row) (hfirst : before.head? = some first)
    (hcount : row.values.length ≠ first.values.length) :
    Offends before line n (.columns n first.values.length row.values.length)
  | timestamp {row last : TraceRow} (hreads : Reads line row)
    (heven : ∀ first ∈ before.head?, row.values.length = first.values.length)
    (hlast : before.getLast? = some last) (hback : row.time < last.time) :
    Offends before line n (.timestamp n row.time last.time)

/-- Why content is no trace. -/
inductive Refused : List (List Char × Nat) → TraceError → Prop
  | empty : Refused [] .empty
  | line {before later : List (List Char × Nat)} {rows : List TraceRow} {line : List Char} {n : Nat}
    {e : TraceError} (hbefore : Denotes before rows) (hline : Offends rows line n e) :
    Refused (before ++ (line, n) :: later) e

theorem tokens_eq (line : List Char) : tokens line = words line :=
  Text.wordsBy_eq line

theorem words_trim (line : List Char) : words (Text.trim line) = words line := by
  rw [← tokens_eq, ← tokens_eq]
  exact Text.wordsBy_trim (fun c hc => by simp [hc]) line

theorem isContent_iff {line : List Char} :
    IsContent line ↔ isComment line = false ∧ words line ≠ [] := by
  unfold IsContent isComment
  rw [words_trim, Text.head?_trim, decide_eq_false_iff_not]
  constructor
  · rintro ⟨-, hcomment, hwords⟩
    exact ⟨hcomment, hwords⟩
  · rintro ⟨hcomment, hwords⟩
    refine ⟨fun hnil => hwords ?_, hcomment, hwords⟩
    rw [← words_trim, hnil]
    rfl

theorem contentFrom_cons (n : Nat) (line : List Char) (lines : List (List Char)) :
    contentFrom n (line :: lines) =
      if IsContent line then (line, n) :: contentFrom (n + 1) lines
      else contentFrom (n + 1) lines := by
  unfold contentFrom
  rw [List.zipIdx_cons, List.filter_cons]
  simp only [decide_eq_true_eq]

/-! ## One line -/

theorem number_of_spells {limit line n : Nat} {token : List Char} (h : Spells limit token n) :
    number limit line token = .ok n := by
  unfold number
  rw [unsigned?_eq_some.mpr h]

theorem number_of_not_legible {limit line : Nat} {token : List Char} (h : ¬ Legible limit token) :
    number limit line token = .error (.number line (String.ofList token)) := by
  unfold number
  cases hread : Text.unsigned? limit token with
  | none => rfl
  | some n => exact absurd ⟨n, unsigned?_eq_some.mp hread⟩ h

theorem mapM_number_of_spells {limit line : Nat} {tokens : List (List Char)} {values : List Nat}
    (h : List.Forall₂ (Spells limit) tokens values) :
    tokens.mapM (number limit line) = .ok values := by
  induction h with
  | nil => rfl
  | cons hspells _ ih =>
    rw [List.mapM_cons, number_of_spells hspells, Checked.ok_bind, ih]
    rfl

theorem mapM_number_of_not_legible {limit line : Nat} {good later : List (List Char)}
    {token : List Char} (hgood : ∀ word ∈ good, Legible limit word) (hbad : ¬ Legible limit token) :
    (good ++ token :: later).mapM (number limit line) =
      .error (.number line (String.ofList token)) := by
  induction good with
  | nil =>
    rw [List.nil_append, List.mapM_cons, number_of_not_legible hbad]
    rfl
  | cons word good ih =>
    obtain ⟨⟨n, hword⟩, hgood⟩ := List.forall_mem_cons.mp hgood
    rw [List.cons_append, List.mapM_cons, number_of_spells hword, Checked.ok_bind, ih hgood]
    rfl

/-- A row goes under the rows before it. -/
def Follows (before : List TraceRow) (row : TraceRow) : Prop :=
  (∀ first ∈ before.head?, row.values.length = first.values.length) ∧
    ∀ last ∈ before.getLast?, last.time ≤ row.time

variable {before : List TraceRow} {line : List Char} {n : Nat} {row : TraceRow}

/-- What is left to check once the numbers of a line were read. -/
theorem readRow_of_reads (hcomment : isComment line = false) (h : Reads line row)
    (first previous : Option TraceRow) :
    readRow n line first previous = do
      if let some first := first then
        if row.values.length ≠ first.values.length then
          throw (.columns n first.values.length row.values.length)
      if let some previous := previous then
        if row.time < previous.time then
          throw (.timestamp n row.time previous.time)
      return some row := by
  obtain ⟨⟨time, samples, hwords, htime, hsamples⟩, hne⟩ := h
  have hempty : row.values.isEmpty = false := by simpa using hne
  unfold readRow
  rw [hcomment, tokens_eq, hwords]
  simp only [number_of_spells htime, mapM_number_of_spells hsamples, Checked.ok_bind, hempty]
  rfl

theorem readRow_of_follows (hcomment : isComment line = false) (h : Reads line row)
    (hfollows : Follows before row) :
    readRow n line before.head? before.getLast? = .ok (some row) := by
  obtain ⟨heven, hordered⟩ := hfollows
  rw [readRow_of_reads hcomment h]
  cases hfirst : before.head? with
  | none =>
    have hlast : before.getLast? = none := by
      rw [List.head?_eq_none_iff.mp hfirst]
      rfl
    rw [hlast]
    rfl
  | some first =>
    cases hlast : before.getLast? with
    | none => simp [List.getLast?_eq_none_iff.mp hlast] at hfirst
    | some last =>
      have hcount := heven first hfirst
      have htime : ¬ row.time < last.time := Nat.not_lt.mpr (hordered last hlast)
      simp only [hcount, htime, ne_eq, not_true_eq_false, if_false]
      rfl

theorem readRow_of_offends (hcomment : isComment line = false) {e : TraceError}
    (h : Offends before line n e) :
    readRow n line before.head? before.getLast? = .error e := by
  cases h with
  | number hwords hgood hbad =>
    rename_i good later token
    unfold readRow
    rw [hcomment, tokens_eq, hwords]
    cases good with
    | nil =>
      have htime : ¬ Legible Checked.max64 token := hbad
      simp only [List.nil_append, number_of_not_legible htime, Checked.error_bind]
      rfl
    | cons time good =>
      obtain ⟨t, htime⟩ : Legible Checked.max64 time := hgood 0 time rfl
      have hsamples : ∀ word ∈ good, Legible Checked.max32 word := fun word hword => by
        obtain ⟨i, hi⟩ := List.mem_iff_getElem?.mp hword
        exact hgood (i + 1) word hi
      simp only [List.cons_append, number_of_spells htime,
        mapM_number_of_not_legible hsamples hbad, Checked.ok_bind, Checked.error_bind]
      rfl
  | missingSamples hwords htime =>
    obtain ⟨t, htime⟩ := htime
    unfold readRow
    rw [hcomment, tokens_eq, hwords]
    simp only [number_of_spells htime, Checked.ok_bind]
    rfl
  | columns hreads hfirst hcount =>
    rw [readRow_of_reads hcomment hreads, hfirst]
    simp only [ne_eq, hcount, not_false_eq_true, if_true]
    rfl
  | timestamp hreads heven hlast hback =>
    rw [readRow_of_reads hcomment hreads, hlast]
    cases hfirst : before.head? with
    | none => simp [List.head?_eq_none_iff.mp hfirst] at hlast
    | some first =>
      simp only [heven first hfirst, ne_eq, not_true_eq_false, if_false, hback, if_true]
      rfl

/-- Words are all numbers, or there is a first one that is not. -/
theorem numbers_or_bad (limit : Nat) (tokens : List (List Char)) :
    (∃ values, List.Forall₂ (Spells limit) tokens values) ∨
      ∃ good token later, tokens = good ++ token :: later ∧ (∀ word ∈ good, Legible limit word) ∧
        ¬ Legible limit token := by
  induction tokens with
  | nil => exact .inl ⟨[], .nil⟩
  | cons word tokens ih =>
    by_cases hword : Legible limit word
    · obtain ⟨values, hvalues⟩ | ⟨good, token, later, rfl, hgood, hbad⟩ := ih
      · obtain ⟨n, hn⟩ := hword
        exact .inl ⟨n :: values, .cons hn hvalues⟩
      · exact .inr ⟨word :: good, token, later, rfl, List.forall_mem_cons.mpr ⟨hword, hgood⟩, hbad⟩
    · exact .inr ⟨[], word, tokens, rfl, List.forall_mem_nil _, hword⟩

/-- A line with words goes under the rows before it, or offends. -/
theorem follows_or_offends (before : List TraceRow) (hwords : words line ≠ []) (n : Nat) :
    (∃ row, Reads line row ∧ Follows before row) ∨ ∃ e, Offends before line n e := by
  obtain ⟨time, samples, hline⟩ := List.exists_cons_of_ne_nil hwords
  by_cases htime : Legible Checked.max64 time
  swap
  · exact .inr ⟨_, .number (show words line = [] ++ time :: samples from hline) nofun htime⟩
  obtain ⟨values, hvalues⟩ | ⟨good, token, later, rfl, hgood, hbad⟩ :=
    numbers_or_bad Checked.max32 samples
  swap
  · have hsplit : words line = (time :: good) ++ token :: later := hline
    refine .inr ⟨_, .number hsplit (fun i word hi => ?_) hbad⟩
    cases i with
    | zero => exact Option.some.inj hi ▸ htime
    | succ i => exact hgood word (List.mem_of_getElem? hi)
  by_cases hnone : values = []
  · subst hnone
    rw [List.forall₂_nil_right_iff.mp hvalues] at hline
    exact .inr ⟨_, .missingSamples hline htime⟩
  obtain ⟨t, htime⟩ := htime
  have hreads : Reads line ⟨t, values⟩ := ⟨⟨time, samples, hline, htime, hvalues⟩, hnone⟩
  by_cases heven : ∀ first ∈ before.head?, values.length = first.values.length
  swap
  · push Not at heven
    obtain ⟨first, hfirst, hcount⟩ := heven
    exact .inr ⟨_, .columns hreads hfirst hcount⟩
  by_cases hordered : ∀ last ∈ before.getLast?, last.time ≤ t
  · exact .inl ⟨_, hreads, heven, hordered⟩
  · push Not at hordered
    obtain ⟨last, hlast, hback⟩ := hordered
    exact .inr ⟨_, .timestamp hreads heven hlast hback⟩

/-! ## All lines -/

theorem Uniform.nil : Uniform [] := ⟨⟨0, List.forall_mem_nil _⟩, List.Pairwise.nil⟩

theorem Uniform.snoc (h : Uniform before) (hfollows : Follows before row) :
    Uniform (before ++ [row]) := by
  obtain ⟨⟨count, heven⟩, hordered⟩ := h
  obtain ⟨hcount, htime⟩ := hfollows
  cases hlast : before.getLast? with
  | none =>
    obtain rfl := List.getLast?_eq_none_iff.mp hlast
    exact ⟨⟨_, List.forall_mem_singleton.mpr rfl⟩, List.pairwise_singleton _ _⟩
  | some last =>
    obtain ⟨earlier, rfl⟩ := List.getLast?_eq_some_iff.mp hlast
    obtain ⟨first, hfirst⟩ : ∃ first, (earlier ++ [last]).head? = some first :=
      Option.ne_none_iff_exists'.mp (by simp)
    refine ⟨⟨count, fun other hother => ?_⟩, ?_⟩
    · rcases List.mem_append.mp hother with hother | hother
      · exact heven other hother
      · obtain rfl := List.mem_singleton.mp hother
        rw [hcount first hfirst, heven first (List.mem_of_head? hfirst)]
    · rw [List.map_append, List.pairwise_append]
      refine ⟨hordered, List.pairwise_singleton _ _, fun a ha b hb => ?_⟩
      obtain rfl := List.mem_singleton.mp hb
      have hle : last.time ≤ row.time := htime last (by simp)
      rw [List.map_append, List.pairwise_append] at hordered
      rw [List.map_append] at ha
      rcases List.mem_append.mp ha with ha | ha
      · exact (hordered.2.2 a ha last.time (by simp)).trans hle
      · exact (List.mem_singleton.mp ha).trans_le hle

theorem Uniform.follows {later : List TraceRow} (h : Uniform (before ++ row :: later)) :
    Follows before row := by
  obtain ⟨⟨count, heven⟩, hordered⟩ := h
  have hrow : row ∈ before ++ row :: later := by simp
  rw [List.map_append, List.pairwise_append] at hordered
  refine ⟨fun first hfirst => ?_, fun last hlast => ?_⟩
  · rw [heven row hrow, heven first (List.mem_append_left _ (List.mem_of_head? hfirst))]
  · exact hordered.2.2 _ (List.mem_map_of_mem (List.mem_of_getLast? hlast)) _ (by simp)

/-- The state in which the lines after a row are read. -/
theorem readRows_cons (n : Nat) (before : List TraceRow) (row : TraceRow) (line : List Char)
    (lines : List (List Char))
    (h : readRow n line before.head? before.getLast? = .ok (some row)) :
    readRows n before.head? before.getLast? (line :: lines) =
      (row :: ·) <$> readRows (n + 1) (before ++ [row]).head? (before ++ [row]).getLast? lines := by
  have hfirst : (before ++ [row]).head? = (before.head? <|> some row) := by
    cases before <;> rfl
  rw [readRows, h, hfirst, List.getLast?_concat]
  rfl

theorem readRows_skip {n : Nat} {first previous : Option TraceRow} {line : List Char}
    (lines : List (List Char)) (h : ¬ IsContent line) :
    readRows n first previous (line :: lines) = readRows (n + 1) first previous lines := by
  have hrow : readRow n line first previous = .ok none := by
    unfold readRow
    cases hcomment : isComment line with
    | true => rfl
    | false =>
      have hwords : words line = [] := by
        by_contra hne
        exact h (isContent_iff.mpr ⟨hcomment, hne⟩)
      rw [tokens_eq, hwords]
      rfl
  rw [readRows, hrow]
  rfl

theorem readRows_of_denotes {lines : List (List Char)} {n : Nat} {before rows : List TraceRow}
    (hreads : List.Forall₂ (fun entry row => Reads entry.1 row) (contentFrom n lines) rows)
    (huniform : Uniform (before ++ rows)) :
    readRows n before.head? before.getLast? lines = .ok rows := by
  induction lines generalizing n before rows with
  | nil =>
    obtain rfl := List.forall₂_nil_left_iff.mp hreads
    rfl
  | cons line lines ih =>
    rw [contentFrom_cons] at hreads
    split_ifs at hreads with hcontent
    · obtain ⟨row, later, hrow, hlater, rfl⟩ := List.forall₂_cons_left_iff.mp hreads
      have hread := readRow_of_follows (n := n) (isContent_iff.mp hcontent).1 hrow huniform.follows
      rw [List.append_cons] at huniform
      rw [readRows_cons n before row line lines hread, ih hlater huniform]
      rfl
    · rw [readRows_skip lines hcontent]
      exact ih hreads huniform

theorem readRows_of_offends {lines : List (List Char)} {n k : Nat} {before rows : List TraceRow}
    {earlier later : List (List Char × Nat)} {line : List Char} {e : TraceError}
    (hlines : contentFrom n lines = earlier ++ (line, k) :: later)
    (hreads : List.Forall₂ (fun entry row => Reads entry.1 row) earlier rows)
    (huniform : Uniform (before ++ rows)) (h : Offends (before ++ rows) line k e) :
    readRows n before.head? before.getLast? lines = .error e := by
  induction lines generalizing n before rows earlier with
  | nil => exact absurd hlines (by simp [contentFrom])
  | cons first lines ih =>
    rw [contentFrom_cons] at hlines
    split_ifs at hlines with hcontent
    · cases hreads with
      | nil =>
        rw [List.nil_append, List.cons.injEq, Prod.mk.injEq] at hlines
        obtain ⟨⟨rfl, rfl⟩, -⟩ := hlines
        rw [List.append_nil] at h
        rw [readRows, readRow_of_offends (isContent_iff.mp hcontent).1 h]
        rfl
      | cons hrow hrest =>
        rename_i entry row earlier rows
        rw [List.cons_append, List.cons.injEq] at hlines
        obtain ⟨rfl, hlines⟩ := hlines
        have hread := readRow_of_follows (n := n) (isContent_iff.mp hcontent).1 hrow huniform.follows
        rw [List.append_cons] at huniform h
        rw [readRows_cons n before row first lines hread, ih hlines hrest huniform h]
        rfl
    · rw [readRows_skip lines hcontent]
      exact ih hlines hreads huniform h

/-- Content with words in each of its lines stands for rows, or a first line of it offends. -/
theorem denotes_or_offends {content : List (List Char × Nat)}
    (hwords : ∀ entry ∈ content, words entry.1 ≠ []) {before : List TraceRow}
    (hbefore : Uniform before) :
    (∃ rows, List.Forall₂ (fun entry row => Reads entry.1 row) content rows ∧
        Uniform (before ++ rows)) ∨
      ∃ earlier line n later rows e, content = earlier ++ (line, n) :: later ∧
        List.Forall₂ (fun entry row => Reads entry.1 row) earlier rows ∧
        Uniform (before ++ rows) ∧ Offends (before ++ rows) line n e := by
  induction content generalizing before with
  | nil => exact .inl ⟨[], .nil, (List.append_nil before).symm ▸ hbefore⟩
  | cons entry content ih =>
    obtain ⟨hentry, hcontent⟩ := List.forall_mem_cons.mp hwords
    obtain ⟨row, hrow, hfollows⟩ | ⟨e, he⟩ := follows_or_offends before hentry entry.2
    · obtain ⟨rows, hrows, huniform⟩ | ⟨earlier, line, n, later, rows, e, rfl, hrows, huniform, he⟩ :=
        ih hcontent (hbefore.snoc hfollows)
      · rw [← List.append_cons] at huniform
        exact .inl ⟨row :: rows, .cons hrow hrows, huniform⟩
      · rw [← List.append_cons] at huniform he
        exact .inr ⟨entry :: earlier, line, n, later, row :: rows, e, rfl, .cons hrow hrows,
          huniform, he⟩
    · exact .inr ⟨[], entry.1, entry.2, content, [], e, rfl, .nil,
        (List.append_nil before).symm ▸ hbefore, (List.append_nil before).symm ▸ he⟩

/-! ## The whole text -/

theorem words_of_mem_contentFrom {n : Nat} {lines : List (List Char)} {entry : List Char × Nat}
    (h : entry ∈ contentFrom n lines) : words entry.1 ≠ [] := by
  have hcontent : IsContent entry.1 := by simpa using (List.mem_filter.mp h).2
  exact (isContent_iff.mp hcontent).2

theorem ofText_of_denotes {text : String} {t : Trace} (h : Denotes (content text) t.rows) :
    ofText text = .ok t := by
  have hrows := readRows_of_denotes h.reads (show Uniform ([] ++ t.rows) from h.uniform)
  unfold ofText
  rw [show readRows 1 none none _ = .ok t.rows from hrows]
  rfl

theorem ofText_of_refused {text : String} {e : TraceError} (h : Refused (content text) e) :
    ofText text = .error e := by
  unfold ofText
  generalize hcontent : content text = entries at h
  cases h with
  | empty =>
    have hreads : List.Forall₂ (fun entry row => Reads entry.1 row)
        (contentFrom 1 (Text.lines text.toList)) [] := by
      rw [← content, hcontent]
      exact .nil
    have hrows := readRows_of_denotes hreads (show Uniform ([] ++ []) from .nil)
    rw [show readRows 1 none none _ = .ok [] from hrows]
    rfl
  | @line _ _ rows _ _ _ hbefore hline =>
    have huniform : Uniform ([] ++ rows) := hbefore.uniform
    have herror := readRows_of_offends hcontent hbefore.reads huniform hline
    rw [show readRows 1 none none _ = .error e from herror]
    rfl

/-- A text is a trace, or is refused. -/
theorem denotes_or_refused (text : String) :
    (∃ t : Trace, Denotes (content text) t.rows) ∨ ∃ e, Refused (content text) e := by
  have hwords : ∀ entry ∈ content text, words entry.1 ≠ [] := fun _ => words_of_mem_contentFrom
  obtain ⟨rows, hreads, huniform⟩ | ⟨earlier, line, n, later, rows, e, hcontent, hreads, huniform, he⟩ :=
    denotes_or_offends hwords Uniform.nil
  · cases rows with
    | nil => exact .inr ⟨.empty, List.forall₂_nil_right_iff.mp hreads ▸ Refused.empty⟩
    | cons first later => exact .inl ⟨⟨first, later⟩, hreads, huniform⟩
  · exact .inr ⟨e, hcontent ▸ Refused.line ⟨hreads, huniform⟩ he⟩

theorem ofText_eq_ok {text : String} {t : Trace} :
    ofText text = .ok t ↔ Denotes (content text) t.rows := by
  refine ⟨fun h => ?_, ofText_of_denotes⟩
  obtain ⟨t', ht'⟩ | ⟨e, he⟩ := denotes_or_refused text
  · obtain rfl := Checked.ok_unique h (ofText_of_denotes ht')
    exact ht'
  · rw [ofText_of_refused he] at h
    exact nomatch h

theorem ofText_eq_error {text : String} {e : TraceError} :
    ofText text = .error e ↔ Refused (content text) e := by
  refine ⟨fun h => ?_, ofText_of_refused⟩
  obtain ⟨t, ht⟩ | ⟨e', he'⟩ := denotes_or_refused text
  · rw [ofText_of_denotes ht] at h
    exact nomatch h
  · obtain rfl := Except.error.inj ((ofText_of_refused he').symm.trans h)
    exact he'

/-- All rows of a trace have as many readings as it has columns. -/
theorem Uniform.columns_eq {t : Trace} (h : Uniform t.rows) :
    ∀ row ∈ t.rows, row.values.length = t.columns := by
  obtain ⟨⟨count, heven⟩, -⟩ := h
  intro row hrow
  exact (heven row hrow).trans (heven t.first List.mem_cons_self).symm

end SensorEvents.Trace
