import Synod.Ballot
import Synod.Proofs.Reading
import Synod.Text.Padding

/-! Ballots as they are displayed. A name may hold dots and digits of its own, but no number does:
what stands before the first dot is the round, what follows it is the name, and no other ballot is
shown in the same way. -/

namespace Synod

namespace Text

theorem IsCount.not_dot {cs : List Char} {n : Nat} (h : IsCount cs n) : ∀ c ∈ cs, c ≠ '.' := by
  have hdot {digits : List Char} (hdigits : ∀ d ∈ digits, d.isDigit = true) :
      ∀ d ∈ digits, d ≠ '.' := by
    rintro d hd rfl
    exact absurd (hdigits '.' hd) (by decide)
  cases h with
  | plain _ hdigits => exact hdot hdigits
  | signed _ hdigits => exact List.forall_mem_cons.mpr ⟨by decide, hdot hdigits⟩

theorem IsCount.lt_size {cs : List Char} {n : Nat} (h : IsCount cs n) : n < UInt64.size := by
  cases h with
  | plain _ _ hlt => exact hlt
  | signed _ _ hlt => exact hlt

theorem field_zero (align : Align) (text : String) : field align 0 none text = .ok text := by
  cases align <;> simp [field, pad]

end Text

namespace Ballot

/-- A text that stands for a ballot. -/
def Denotes (text : String) (b : Ballot) : Prop :=
  ∃ count, Text.IsCount count b.round.toNat ∧
    text.toList = count ++ '.' :: b.proposer.name.toList

theorem denotes_text (b : Ballot) : Denotes b.text b :=
  ⟨(toString b.round.toNat).toList, Text.isCount_toString b.round.toNat_lt_size, by simp [text]⟩

/-- The first dot stands between the round and the name. -/
theorem Denotes.split {text : String} {b : Ballot} (h : Denotes text b) :
    Text.IsCount (text.toList.takeWhile (· ≠ '.')) b.round.toNat ∧
      text.toList.dropWhile (· ≠ '.') = '.' :: b.proposer.name.toList := by
  obtain ⟨count, hcount, htext⟩ := h
  have hall : ∀ c ∈ count, decide (c ≠ '.') = true := by simpa using hcount.not_dot
  rw [htext, List.takeWhile_append_of_pos hall, List.dropWhile_append_of_pos hall]
  exact ⟨by simpa using hcount, by simp⟩

/-- A text is read as the ballot that it stands for, and as none if there is no such one. -/
theorem ofText?_eq_some_iff {text : String} {b : Ballot} :
    ofText? text = some b ↔ Denotes text b := by
  constructor
  · intro h
    unfold ofText? at h
    split at h
    · cases h
    · rename_i dot name hname
      split at h
      · rename_i round hround
        obtain rfl := Option.some.inj h
        have hcount := Text.readCountChars_eq_ok_iff.mp hround
        have hdot : dot = '.' := by
          have hhead := List.head?_dropWhile_not (· ≠ '.') text.toList
          rw [hname] at hhead
          simpa using hhead
        refine ⟨text.toList.takeWhile (· ≠ '.'), ?_, ?_⟩
        · rwa [UInt64.toNat_ofNat_of_lt' hcount.lt_size]
        · have hsplit := List.takeWhile_append_dropWhile (p := (· ≠ '.')) (l := text.toList)
          rw [hname, hdot] at hsplit
          simpa using hsplit.symm
      · cases h
  · intro h
    obtain ⟨hcount, hname⟩ := h.split
    rw [ofText?, hname, Text.readCountChars_eq_ok_iff.mpr hcount]
    simp

theorem ofText?_text (b : Ballot) : ofText? b.text = some b :=
  ofText?_eq_some_iff.mpr b.denotes_text

theorem text_injective : Function.Injective text := fun a b h =>
  Option.some.inj (a.ofText?_text.symm.trans (h ▸ b.ofText?_text))

/-- Two ballots that are shown without a width are shown alike only if they are the same. What
stands before the first dot is read as the round, and all that follows it is the name. -/
theorem displayed_unambiguous (a b : Ballot) (align align' : Text.Align) :
    (Text.field align 0 none a.text = Text.field align' 0 none b.text ↔ a = b) ∧
      ∃ shown, Text.field align 0 none a.text = .ok shown ∧
        Text.readCountChars (shown.toList.takeWhile (· ≠ '.')) = .ok a.round.toNat ∧
        shown.toList.dropWhile (· ≠ '.') = '.' :: a.proposer.name.toList ∧
        ofText? shown = some a := by
  obtain ⟨hcount, hname⟩ := a.denotes_text.split
  refine ⟨?_, a.text, Text.field_zero align a.text, Text.readCountChars_eq_ok_iff.mpr hcount, hname,
    a.ofText?_text⟩
  rw [Text.field_zero, Text.field_zero, Except.ok.injEq]
  exact text_injective.eq_iff

example : ofText? "7.1.P" = some ⟨7, ⟨"1.P"⟩⟩ := by cbv

end Ballot

end Synod
