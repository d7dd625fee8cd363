import Mathlib.Data.List.TakeWhile
import Synod.Text.Blank
import Synod.Text.Decimal
import Synod.Text.Lines

/-! Reading. A line is made of words with blanks between them, in one way only. A count is written
as digits, perhaps after a plus sign, and its value fits into 64 bits. -/

namespace Synod.Text

/-! ## Words -/

/-- A word is not empty and has no blanks. -/
def IsWord (word : List Char) : Prop := word ≠ [] ∧ ∀ c ∈ word, isBlank c = false

theorem isWord_reverse {read : List Char} (hne : read ≠ [])
    (hread : ∀ c ∈ read, isBlank c = false) : IsWord read.reverse :=
  ⟨by simpa using hne, fun c hc => hread c (List.mem_reverse.mp hc)⟩

/-- A text that is made of these words, each up to a blank or the end. -/
inductive Spaced : List Char → List (List Char) → Prop where
  | blank (gap) (hgap : ∀ c ∈ gap, isBlank c = true) : Spaced gap []
  | word (gap word rest) {words} (hgap : ∀ c ∈ gap, isBlank c = true) (hword : IsWord word)
      (hend : ∀ c ∈ rest.head?, isBlank c = true) (hrest : Spaced rest words) :
      Spaced (gap ++ word ++ rest) (word :: words)

namespace Spaced

variable {c : Char} {cs word : List Char} {words : List (List Char)}

theorem cons_blank (h : Spaced cs words) (hc : isBlank c = true) : Spaced (c :: cs) words := by
  have hcons {gap : List Char} (hgap : ∀ c ∈ gap, isBlank c = true) :
      ∀ d ∈ c :: gap, isBlank d = true := by
    rintro d hd
    rcases List.mem_cons.mp hd with rfl | hd
    · exact hc
    · exact hgap d hd
  cases h with
  | blank _ hgap => exact .blank _ (hcons hgap)
  | word gap word rest hgap hword hend hrest =>
    exact .word (c :: gap) word rest (hcons hgap) hword hend hrest

theorem single (hword : IsWord word) : Spaced word [word] := by
  have hspaced := Spaced.word [] word [] (by simp) hword (by simp) (.blank [] (by simp))
  simpa using hspaced

theorem cons_word (hword : IsWord word) (hc : isBlank c = true) (h : Spaced cs words) :
    Spaced (word ++ c :: cs) (word :: words) :=
  .word [] word (c :: cs) (by simp) hword (by simpa using hc) (h.cons_blank hc)

end Spaced

theorem splitWords_gap {gap : List Char} (hgap : ∀ c ∈ gap, isBlank c = true) (cs : List Char) :
    splitWords [] (gap ++ cs) = splitWords [] cs := by
  induction gap with
  | nil => rfl
  | cons c gap ih =>
    rw [List.cons_append, splitWords, if_pos (hgap c List.mem_cons_self)]
    exact ih fun d hd => hgap d (List.mem_cons_of_mem _ hd)

theorem splitWords_word {word : List Char} (hword : ∀ c ∈ word, isBlank c = false)
    (read cs : List Char) :
    splitWords read (word ++ cs) = splitWords (word.reverse ++ read) cs := by
  induction word generalizing read with
  | nil => rfl
  | cons c word ih =>
    rw [List.cons_append, splitWords, hword c List.mem_cons_self, if_neg (by simp),
      ih fun d hd => hword d (List.mem_cons_of_mem _ hd)]
    simp

/-- A word ends before a blank and at the end. -/
theorem splitWords_end {read rest : List Char} (hread : read ≠ [])
    (hend : ∀ c ∈ rest.head?, isBlank c = true) :
    splitWords read rest = read.reverse :: splitWords [] rest := by
  cases rest with
  | nil => simp [splitWords, hread]
  | cons c rest => simp [splitWords, hend c rfl, hread]

theorem Spaced.splitWords_eq {cs : List Char} {words : List (List Char)} (h : Spaced cs words) :
    splitWords [] cs = words := by
  induction h with
  | blank gap hgap => simpa [splitWords] using splitWords_gap hgap []
  | word gap word rest hgap hword hend _ ih =>
    have hread : word.reverse ≠ [] := by simpa using hword.1
    rw [List.append_assoc, splitWords_gap hgap, splitWords_word hword.2, List.append_nil,
      splitWords_end hread hend, List.reverse_reverse, ih]

/-- What was read of a word so far stands in front of the text. -/
theorem spaced_splitWords {read : List Char} (hread : ∀ c ∈ read, isBlank c = false)
    (cs : List Char) : Spaced (read.reverse ++ cs) (splitWords read cs) := by
  induction cs generalizing read with
  | nil =>
    cases read with
    | nil => exact .blank [] (by simp)
    | cons c read =>
      have hword := isWord_reverse (List.cons_ne_nil c read) hread
      simpa [splitWords] using Spaced.single hword
  | cons c cs ih =>
    cases hc : isBlank c with
    | true =>
      have hrest := @ih [] (by simp)
      cases read with
      | nil => simpa [splitWords, hc] using hrest.cons_blank hc
      | cons d read =>
        have hword := isWord_reverse (List.cons_ne_nil d read) hread
        simpa [splitWords, hc] using Spaced.cons_word hword hc hrest
    | false =>
      have hrest := @ih (c :: read) (by simpa [hc] using hread)
      simpa [splitWords, hc] using hrest

theorem spaced_iff {cs : List Char} {words : List (List Char)} :
    Spaced cs words ↔ splitWords [] cs = words := by
  refine ⟨Spaced.splitWords_eq, ?_⟩
  rintro rfl
  exact @spaced_splitWords [] (by simp) cs

/-- The words of a line. -/
def HasWords (line : String) (words : List String) : Prop :=
  Spaced line.toList (words.map String.toList)

/-- Every line has words, in one way only, and they are what is read. -/
theorem hasWords_iff {line : String} {ws : List String} : HasWords line ws ↔ words line = ws := by
  unfold HasWords words
  rw [spaced_iff]
  constructor
  · intro h
    rw [h, List.map_map]
    simp [Function.comp_def]
  · rintro rfl
    rw [List.map_map]
    simp [Function.comp_def]

/-! ## Blanks at the ends -/

theorem Spaced.append_gap {cs gap : List Char} {words : List (List Char)} (h : Spaced cs words)
    (hgap : ∀ c ∈ gap, isBlank c = true) : Spaced (cs ++ gap) words := by
  induction h with
  | blank before hbefore =>
    refine .blank _ fun c hc => ?_
    rcases List.mem_append.mp hc with hc | hc
    · exact hbefore c hc
    · exact hgap c hc
  | word before word rest hbefore hword hend _ ih =>
    rw [List.append_assoc]
    refine .word before word (rest ++ gap) hbefore hword (fun c hc => ?_) ih
    cases rest with
    | nil => exact hgap c (List.mem_of_mem_head? hc)
    | cons d rest => exact hend c (by simpa using hc)

theorem Spaced.gap_append {cs gap : List Char} {words : List (List Char)} (h : Spaced cs words)
    (hgap : ∀ c ∈ gap, isBlank c = true) : Spaced (gap ++ cs) words := by
  rw [spaced_iff, splitWords_gap hgap]
  exact h.splitWords_eq

theorem exists_gaps (line : String) : ∃ before after, (∀ c ∈ before, isBlank c = true) ∧
    (∀ c ∈ after, isBlank c = true) ∧ line.toList = before ++ ((trim line).toList ++ after) := by
  refine ⟨line.toList.takeWhile isBlank,
    ((line.toList.dropWhile isBlank).reverse.takeWhile isBlank).reverse, ?_, ?_, ?_⟩
  · exact fun c hc => List.mem_takeWhile_imp hc
  · exact fun c hc => List.mem_takeWhile_imp (List.mem_reverse.mp hc)
  · rw [trim, String.toList_ofList, ← List.reverse_append, List.takeWhile_append_dropWhile,
      List.reverse_reverse, List.takeWhile_append_dropWhile]

/-- The blanks at its ends do not matter to the words of a line. -/
theorem words_trim (line : String) : words (trim line) = words line := by
  obtain ⟨before, after, hbefore, hafter, hline⟩ := exists_gaps line
  have htrimmed : HasWords (trim line) (words (trim line)) := hasWords_iff.mpr rfl
  have hwords : HasWords line (words (trim line)) := by
    rw [HasWords, hline]
    exact (htrimmed.append_gap hafter).gap_append hbefore
  exact (hasWords_iff.mp hwords).symm

theorem dropWhile_word {word : List Char} (hword : IsWord word) (cs : List Char) :
    (word ++ cs).dropWhile isBlank = word ++ cs := by
  obtain ⟨c, word, rfl⟩ := List.exists_cons_of_ne_nil hword.1
  exact List.dropWhile_cons_of_neg (by simp [hword.2 c List.mem_cons_self])

theorem Spaced.trim_eq {cs word : List Char} (h : Spaced cs [word]) :
    ((cs.dropWhile isBlank).reverse.dropWhile isBlank).reverse = word := by
  cases h with
  | word gap _ rest hgap hword _ hrest =>
    cases hrest with
    | blank _ hrest =>
      have hback : IsWord word.reverse := isWord_reverse hword.1 hword.2
      rw [List.append_assoc, List.dropWhile_append_of_pos hgap, dropWhile_word hword,
        List.reverse_append, List.dropWhile_append_of_pos (by simpa using hrest),
        ← List.append_nil word.reverse, dropWhile_word hback, List.append_nil, List.reverse_reverse]

/-- A line of one word is that word, apart from blanks. -/
theorem trim_eq_iff {line word : String} (hword : IsWord word.toList) :
    trim line = word ↔ words line = [word] := by
  rw [← words_trim, ← hasWords_iff]
  constructor
  · rintro rfl
    exact .single hword
  · intro h
    have hwords : HasWords line [word] := by
      rwa [hasWords_iff, ← words_trim, ← hasWords_iff]
    rw [trim, hwords.trim_eq, String.ofList_toList]

theorem trim_eq_empty_iff {line : String} : trim line = "" ↔ words line = [] := by
  constructor
  · intro h
    rw [← words_trim, h]
    rfl
  · intro h
    have hspaced : Spaced line.toList [] := hasWords_iff.mpr h
    have hblank : ∀ c ∈ line.toList, isBlank c = true := by
      generalize line.toList = cs at hspaced
      cases hspaced with
      | blank _ hblank => exact hblank
    rw [trim, List.dropWhile_eq_nil_iff.mpr hblank]
    rfl

/-! ## Pieces -/

theorem splitAt_of_notMem {sep : Char} {piece : List Char} (h : sep ∉ piece) :
    splitAt sep piece = [piece] := by
  induction piece with
  | nil => rfl
  | cons c piece ih =>
    rw [List.mem_cons, not_or] at h
    rw [splitAt, if_neg (Ne.symm h.1), ih h.2]

theorem splitAt_append_cons {sep : Char} {piece : List Char} (h : sep ∉ piece) (cs : List Char) :
    splitAt sep (piece ++ sep :: cs) = piece :: splitAt sep cs := by
  induction piece with
  | nil => rw [List.nil_append, splitAt, if_pos rfl]
  | cons c piece ih =>
    rw [List.mem_cons, not_or] at h
    rw [List.cons_append, splitAt, if_neg (Ne.symm h.1), ih h.2]

theorem splitAt_intercalate {sep : Char} {pieces : List (List Char)} (hne : pieces ≠ [])
    (h : ∀ piece ∈ pieces, sep ∉ piece) : splitAt sep ([sep].intercalate pieces) = pieces := by
  induction pieces with
  | nil => exact absurd rfl hne
  | cons piece pieces ih =>
    have hpiece := h piece List.mem_cons_self
    have hpieces : ∀ p ∈ pieces, sep ∉ p := fun p hp => h p (List.mem_cons_of_mem _ hp)
    cases pieces with
    | nil => simpa using splitAt_of_notMem hpiece
    | cons next pieces =>
      rw [List.intercalate_cons_cons, List.append_assoc, List.singleton_append,
        splitAt_append_cons hpiece, ih (List.cons_ne_nil _ _) hpieces]

/-- Every text has pieces, in one way only. -/
theorem pieces_eq_iff {sep : Char} {text : String} {ps : List String} :
    pieces sep text = ps ↔ ps ≠ [] ∧ (∀ p ∈ ps, sep ∉ p.toList) ∧
      [sep].intercalate (ps.map String.toList) = text.toList := by
  have hback (pss : List (List Char)) : (pss.map String.ofList).map String.toList = pss := by
    simp [Function.comp_def]
  constructor
  · rintro rfl
    refine ⟨by simpa [pieces] using splitAt_ne_nil sep text.toList, ?_, ?_⟩
    · intro p hp
      obtain ⟨piece, hpiece, rfl⟩ := List.mem_map.mp hp
      rw [String.toList_ofList]
      exact not_mem_of_mem_splitAt hpiece
    · rw [pieces, hback, intercalate_splitAt]
  · rintro ⟨hne, hsep, htext⟩
    have hsplit : splitAt sep ([sep].intercalate (ps.map String.toList)) = ps.map String.toList :=
      splitAt_intercalate (by simpa using hne) (by simpa using hsep)
    rw [pieces, ← htext, hsplit, List.map_map]
    simp [Function.comp_def]

theorem pieces_intercalate {sep : Char} {ps : List String} (hne : ps ≠ [])
    (h : ∀ p ∈ ps, sep ∉ p.toList) : pieces sep (sep.toString.intercalate ps) = ps := by
  rw [pieces_eq_iff, String.toList_intercalate, Char.toString_eq_singleton,
    String.toList_singleton]
  exact ⟨hne, h, rfl⟩

/-! ## Counts -/

/-- How a count of 64 bits may be written. -/
inductive IsCount : List Char → Nat → Prop where
  | plain {digits} (hne : digits ≠ []) (hdigits : ∀ d ∈ digits, d.isDigit = true)
      (hlt : Nat.ofDigitChars 10 digits 0 < UInt64.size) :
      IsCount digits (Nat.ofDigitChars 10 digits 0)
  | signed {digits} (hne : digits ≠ []) (hdigits : ∀ d ∈ digits, d.isDigit = true)
      (hlt : Nat.ofDigitChars 10 digits 0 < UInt64.size) :
      IsCount ('+' :: digits) (Nat.ofDigitChars 10 digits 0)

theorem le_ofDigitChars (cs : List Char) (acc : Nat) : acc ≤ Nat.ofDigitChars 10 cs acc := by
  induction cs generalizing acc with
  | nil => exact Nat.le_of_eq Nat.ofDigitChars_nil.symm
  | cons c cs ih =>
    rw [Nat.ofDigitChars_cons]
    exact Nat.le_trans (by omega) (ih _)

theorem readDigits_eq_ok_iff {limit acc n : Nat} {cs : List Char} (hacc : acc < limit) :
    readDigits limit acc cs = .ok n ↔
      (∀ c ∈ cs, c.isDigit = true) ∧ Nat.ofDigitChars 10 cs acc = n ∧ n < limit := by
  induction cs generalizing acc with
  | nil =>
    simp only [readDigits, Except.ok.injEq, Nat.ofDigitChars_nil, List.not_mem_nil]
    constructor
    · rintro rfl
      exact ⟨fun _ h => h.elim, rfl, hacc⟩
    · exact fun h => h.2.1
  | cons c cs ih =>
    rw [readDigits, Nat.ofDigitChars_cons, Nat.mul_comm 10, List.forall_mem_cons]
    by_cases hc : c.isDigit = true
    · by_cases hnext : acc * 10 + (c.toNat - '0'.toNat) < limit
      · rw [if_pos hc, if_pos hnext, ih hnext]
        simp [hc]
      · have hle := le_ofDigitChars cs (acc * 10 + (c.toNat - '0'.toNat))
        rw [if_pos hc, if_neg hnext]
        simp only [reduceCtorEq, false_iff]
        omega
    · simp [hc]

theorem readCountChars_eq_ok_iff {cs : List Char} {n : Nat} :
    readCountChars cs = .ok n ↔ IsCount cs n := by
  have hread {digits : List Char} : readDigits UInt64.size 0 digits = .ok n ↔
      (∀ d ∈ digits, d.isDigit = true) ∧ Nat.ofDigitChars 10 digits 0 = n ∧ n < UInt64.size :=
    readDigits_eq_ok_iff (by decide)
  constructor
  · intro h
    unfold readCountChars at h
    split at h
    · cases h
    · obtain ⟨hdigits, rfl, hlt⟩ := hread.mp h
      exact .signed (by simp) hdigits hlt
    · rename_i hne _
      obtain ⟨hdigits, rfl, hlt⟩ := hread.mp h
      exact .plain hne hdigits hlt
  · intro h
    cases h with
    | plain hne hdigits hlt =>
      have hread := hread.mpr ⟨hdigits, rfl, hlt⟩
      unfold readCountChars
      split
      · exact absurd rfl hne
      · -- A plus sign is no digit.
        exact absurd (hdigits '+' List.mem_cons_self) (by decide)
      · exact hread
    | @signed digits hne hdigits hlt =>
      obtain ⟨d, digits, rfl⟩ := List.exists_cons_of_ne_nil hne
      exact hread.mpr ⟨hdigits, rfl, hlt⟩

theorem readCount_eq_ok_iff {text : String} {n : Nat} :
    readCount text = .ok n ↔ IsCount text.toList n :=
  readCountChars_eq_ok_iff

/-! ## Numbers as they are written -/

theorem toDigits_ne_nil (n : Nat) : Nat.toDigits 10 n ≠ [] := by
  intro hnil
  have hvalue : Nat.ofDigitChars 10 (Nat.toDigits 10 n) 0 = n := Nat.ofDigitChars_ten_toDigits
  obtain rfl : 0 = n := by simpa [hnil] using hvalue
  exact absurd hnil (by decide)

theorem isDigit_toDigits (n : Nat) : ∀ d ∈ Nat.toDigits 10 n, d.isDigit = true :=
  fun _ hd => Nat.isDigit_of_mem_toDigits (by decide) (by decide) hd

theorem isBlank_of_isDigit {c : Char} (h : c.isDigit = true) : isBlank c = false := by
  have hrange : 48 ≤ c.toNat ∧ c.toNat ≤ 57 := by
    simpa [Char.isDigit, UInt32.le_iff_toNat_le] using h
  simp only [isBlank, Bool.or_eq_false_iff, Bool.and_eq_false_iff, decide_eq_false_iff_not,
    beq_eq_false_iff_ne]
  omega

/-- A number that fits is written as a count. -/
theorem isCount_toString {n : Nat} (hn : n < UInt64.size) :
    IsCount (toString n).toList n := by
  have hvalue : Nat.ofDigitChars 10 (Nat.toDigits 10 n) 0 = n := Nat.ofDigitChars_ten_toDigits
  have hcount := IsCount.plain (toDigits_ne_nil n) (isDigit_toDigits n) (hvalue.symm ▸ hn)
  rw [hvalue] at hcount
  rwa [Nat.toString_eq_repr, Nat.toList_repr]

theorem isWord_toString (n : Nat) : IsWord (toString n).toList := by
  rw [Nat.toString_eq_repr, Nat.toList_repr]
  exact ⟨toDigits_ne_nil n, fun d hd => isBlank_of_isDigit (isDigit_toDigits n d hd)⟩

end Synod.Text
