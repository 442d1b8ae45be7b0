import Mathlib
import SensorEvents.Readings.Trace

/-!
# Words, numbers and lines

The pieces of a text are those of `List.splitOnP`, and its words are the pieces with something in
them. Separators around words do not matter, so neither does the white space at the ends of a line,
nor the carriage return that a line may end with. A word is a number just when it spells one.
-/
namespace SensorEvents.Text

theorem pieces_eq (isSeparator : Char → Bool) (cs : List Char) :
    pieces isSeparator cs = cs.splitOnP isSeparator := by
  induction cs with
  | nil => rfl
  | cons c cs ih =>
    rw [pieces, List.splitOnP_cons_eq_if_modifyHead, ih]
    by_cases hc : isSeparator c = true
    · rw [if_pos hc, if_pos hc]
    · rw [if_neg hc, if_neg hc]
      cases hsplit : cs.splitOnP isSeparator with
      | nil => exact absurd hsplit (List.splitOnP_ne_nil isSeparator cs)
      | cons piece pieces => rfl

/-! ## Words -/

section Words

variable {isSeparator : Char → Bool}

theorem wordsBy_eq (cs : List Char) :
    wordsBy isSeparator cs = (cs.splitOnP isSeparator).filter (!·.isEmpty) := by
  rw [wordsBy, pieces_eq]

/-- A separator ends the words before it. -/
theorem wordsBy_append_cons (cs later : List Char) {separator : Char}
    (h : isSeparator separator = true) :
    wordsBy isSeparator (cs ++ separator :: later) =
      wordsBy isSeparator cs ++ wordsBy isSeparator later := by
  rw [wordsBy_eq, List.splitOnP_append_cons cs later h, List.filter_append, ← wordsBy_eq,
    ← wordsBy_eq]

theorem wordsBy_gap_append {gap : List Char} (h : ∀ c ∈ gap, isSeparator c = true)
    (later : List Char) : wordsBy isSeparator (gap ++ later) = wordsBy isSeparator later := by
  induction gap with
  | nil => rfl
  | cons c gap ih =>
    obtain ⟨hc, hgap⟩ := List.forall_mem_cons.mp h
    rw [← ih hgap]
    exact wordsBy_append_cons [] (gap ++ later) hc

theorem wordsBy_gap {gap : List Char} (h : ∀ c ∈ gap, isSeparator c = true) :
    wordsBy isSeparator gap = [] := by
  have hgap := wordsBy_gap_append h []
  rwa [List.append_nil] at hgap

theorem wordsBy_append_gap (cs : List Char) {gap : List Char}
    (h : ∀ c ∈ gap, isSeparator c = true) :
    wordsBy isSeparator (cs ++ gap) = wordsBy isSeparator cs := by
  cases gap with
  | nil => rw [List.append_nil]
  | cons c gap =>
    obtain ⟨hc, hgap⟩ := List.forall_mem_cons.mp h
    rw [wordsBy_append_cons cs gap hc, wordsBy_gap hgap, List.append_nil]

theorem wordsBy_word {word : List Char} (hne : word ≠ [])
    (h : ∀ c ∈ word, isSeparator c = false) : wordsBy isSeparator word = [word] := by
  rw [wordsBy_eq, List.splitOnP_eq_singleton h]
  simp [hne]

/-- A word ends where a separator comes, or the text does. -/
theorem wordsBy_word_append {word : List Char} (hne : word ≠ [])
    (h : ∀ c ∈ word, isSeparator c = false) {later : List Char}
    (hlater : ∀ c ∈ later.head?, isSeparator c = true) :
    wordsBy isSeparator (word ++ later) = word :: wordsBy isSeparator later := by
  cases later with
  | nil =>
    rw [List.append_nil, wordsBy_word hne h]
    rfl
  | cons c later =>
    have hc : isSeparator c = true := hlater c rfl
    have hskip : wordsBy isSeparator (c :: later) = wordsBy isSeparator later :=
      wordsBy_append_cons [] later hc
    rw [wordsBy_append_cons word later hc, wordsBy_word hne h, hskip]
    rfl

end Words

/-! ## White space at the ends -/

/-- A text without the white space at both of its ends. -/
def trim (cs : List Char) : List Char := (cs.dropWhile isBlank).rdropWhile isBlank

/-- Where white space separates, trimming leaves the words as they are. -/
theorem wordsBy_trim {isSeparator : Char → Bool} (h : ∀ c, isBlank c = true → isSeparator c = true)
    (cs : List Char) : wordsBy isSeparator (trim cs) = wordsBy isSeparator cs := by
  have hstart : ∀ c ∈ cs.takeWhile isBlank, isSeparator c = true := fun c hc =>
    h c (List.mem_takeWhile_imp hc)
  have hend : ∀ c ∈ (cs.dropWhile isBlank).rtakeWhile isBlank, isSeparator c = true := fun c hc =>
    h c (List.mem_rtakeWhile_imp hc)
  calc wordsBy isSeparator (trim cs)
      = wordsBy isSeparator (trim cs ++ (cs.dropWhile isBlank).rtakeWhile isBlank) :=
        (wordsBy_append_gap _ hend).symm
    _ = wordsBy isSeparator (cs.dropWhile isBlank) := by
        rw [trim, List.rdropWhile_append_rtakeWhile]
    _ = wordsBy isSeparator (cs.takeWhile isBlank ++ cs.dropWhile isBlank) :=
        (wordsBy_gap_append hstart _).symm
    _ = wordsBy isSeparator cs := by rw [List.takeWhile_append_dropWhile]

/-- What a text begins with, white space in front of it apart. -/
theorem head?_trim (cs : List Char) : (trim cs).head? = (cs.dropWhile isBlank).head? := by
  unfold trim
  cases hdrop : cs.dropWhile isBlank with
  | nil => rfl
  | cons c later =>
    have hc : ¬ isBlank c = true := by
      have hhead := List.head?_dropWhile_not isBlank cs
      rw [hdrop] at hhead
      exact Bool.eq_false_iff.mp hhead
    have hne : (c :: later).rdropWhile isBlank ≠ [] := fun hnil =>
      hc (List.rdropWhile_eq_nil_iff.mp hnil c List.mem_cons_self)
    obtain ⟨rest, hrest⟩ := List.rdropWhile_prefix (p := isBlank) (c :: later)
    cases htrim : (c :: later).rdropWhile isBlank with
    | nil => exact absurd htrim hne
    | cons d kept =>
      rw [htrim, List.cons_append] at hrest
      exact congrArg some (List.cons.inj hrest).1

/-! ## Numbers -/

/-- A word of digits, with a plus in front or not, whose value is at most `limit`. -/
def Spells (limit : Nat) (word : List Char) (n : Nat) : Prop :=
  ∃ digits, (word = digits ∨ word = '+' :: digits) ∧ digits ≠ [] ∧
    (∀ c ∈ digits, c.isDigit = true) ∧ Nat.ofDigitChars 10 digits 0 = n ∧ n ≤ limit

/-- A word without the plus that it may begin with. -/
def withoutPlus : List Char → List Char
  | '+' :: ds => ds
  | ds => ds

theorem unsigned?_eq (limit : Nat) (word : List Char) :
    unsigned? limit word =
      if (withoutPlus word).isEmpty || !(withoutPlus word).all Char.isDigit then none
      else if Nat.ofDigitChars 10 (withoutPlus word) 0 ≤ limit then
        some (Nat.ofDigitChars 10 (withoutPlus word) 0)
      else none := rfl

theorem withoutPlus_of_digits {digits : List Char} (h : ∀ c ∈ digits, c.isDigit = true) :
    withoutPlus digits = digits := by
  unfold withoutPlus
  split
  · exact absurd (h '+' List.mem_cons_self) (by decide)
  · rfl

theorem eq_withoutPlus (word : List Char) :
    word = withoutPlus word ∨ word = '+' :: withoutPlus word := by
  unfold withoutPlus
  split
  · exact .inr rfl
  · exact .inl rfl

theorem unsigned?_eq_some {limit : Nat} {word : List Char} {n : Nat} :
    unsigned? limit word = some n ↔ Spells limit word n := by
  rw [unsigned?_eq]
  constructor
  · intro h
    split_ifs at h with hword hfits
    obtain rfl := Option.some.inj h
    simp only [Bool.or_eq_true, List.isEmpty_iff, Bool.not_eq_true', not_or, Bool.not_eq_false,
      List.all_eq_true] at hword
    exact ⟨withoutPlus word, eq_withoutPlus word, hword.1, hword.2, rfl, hfits⟩
  · rintro ⟨digits, hword, hne, hdigits, rfl, hfits⟩
    have hplus : withoutPlus word = digits := by
      rcases hword with rfl | rfl
      · exact withoutPlus_of_digits hdigits
      · rfl
    have hrefused : ¬ (digits.isEmpty || !digits.all Char.isDigit) = true := by
      simpa [hne] using hdigits
    rw [hplus, if_neg hrefused, if_pos hfits]

/-- A number that is written down spells itself. -/
theorem spells_toDigits {limit n : Nat} (h : n ≤ limit) : Spells limit (Nat.toDigits 10 n) n :=
  ⟨_, .inl rfl, Nat.toDigits_ne_nil, fun _ => Nat.isDigit_of_mem_toDigits (by decide) (by decide),
    Nat.ofDigitChars_toDigits (by decide) (by decide), h⟩

/-! ## Lines -/

/-- A line without the carriage return that it may end with. -/
def withoutReturn (line : List Char) : List Char :=
  if line.getLast? = some '\r' then line.dropLast else line

theorem eq_withoutReturn (line : List Char) :
    line = withoutReturn line ∨ line = withoutReturn line ++ ['\r'] := by
  unfold withoutReturn
  split_ifs with h
  · obtain ⟨init, rfl⟩ := List.getLast?_eq_some_iff.mp h
    exact .inr (by rw [List.dropLast_concat])
  · exact .inl rfl

/-- The lines of lines that are put one under the other. -/
theorem lines_intercalate {lines : List (List Char)} {last : List Char}
    (h : ∀ line ∈ lines ++ [last], '\n' ∉ line) :
    Text.lines (['\n'].intercalate (lines ++ [last])) =
      lines.map withoutReturn ++ if last.isEmpty then [] else [last] := by
  have hsplit : pieces (· = '\n') (['\n'].intercalate (lines ++ [last])) = lines ++ [last] := by
    rw [pieces_eq]
    exact (List.splitOn_eq_splitOnP.symm).trans (List.splitOn_intercalate '\n' h (by simp))
  unfold Text.lines
  simp only [hsplit, List.getLast?_concat, List.dropLast_concat, Option.getD_some]
  by_cases hlast : last.isEmpty = true
  · rw [if_pos hlast, if_pos hlast, List.append_nil]
    rfl
  · rw [if_neg hlast, if_neg hlast]
    rfl

end SensorEvents.Text
