import Docscript.Text.Blank
import Docscript.Text.LetterCase

set_option autoImplicit false

namespace Docscript.Text

namespace CharRange

variable {range other : CharRange} {code : Nat}

def codes (range : CharRange) : List Nat :=
  List.range' range.first ((range.last - range.first) / range.step + 1) range.step

theorem mem_codes (inside : range.contains code = true) : code ∈ range.codes := by
  obtain ⟨lower, upper, stepped⟩ := (contains_iff range code).mp inside
  rw [codes, List.mem_range']
  refine ⟨(code - range.first) / range.step, ?_, ?_⟩
  · have less : (code - range.first) / range.step ≤ (range.last - range.first) / range.step :=
      Nat.div_le_div_right (by omega)
    omega
  · rw [Nat.mul_div_cancel' (Nat.dvd_of_mod_eq_zero stepped)]
    omega

/-- Whether two ranges share no code point: one ends before the other begins, or they pass each
other by. -/
def apart (range other : CharRange) : Bool :=
  range.last.blt other.first || other.last.blt range.first ||
    range.codes.all fun code => !other.contains code

theorem not_contains_of_apart (apart : range.apart other = true)
    (inside : range.contains code = true) : other.contains code = false := by
  obtain ⟨lower, upper, -⟩ := (contains_iff range code).mp inside
  rw [Bool.eq_false_iff, ne_eq, contains_iff]
  rintro ⟨otherLower, otherUpper, stepped⟩
  simp only [CharRange.apart, Bool.or_eq_true, Nat.blt_eq, List.all_eq_true] at apart
  rcases apart with (before | after) | passing
  · omega
  · omega
  · have missed := passing code (mem_codes inside)
    rw [Bool.not_eq_true', Bool.eq_false_iff, ne_eq, contains_iff] at missed
    exact missed ⟨otherLower, otherUpper, stepped⟩

/-- Whether the code points of a range are among those of another. -/
def within (range other : CharRange) : Bool :=
  other.first.ble range.first && range.last.ble other.last &&
    (range.first - other.first) % other.step == 0 && range.step % other.step == 0

theorem contains_of_within (within : range.within other = true)
    (inside : range.contains code = true) : other.contains code = true := by
  obtain ⟨lower, upper, stepped⟩ := (contains_iff range code).mp inside
  simp only [CharRange.within, Bool.and_eq_true, Nat.ble_eq, beq_iff_eq] at within
  obtain ⟨⟨⟨below, above⟩, start⟩, step⟩ := within
  rw [contains_iff]
  refine ⟨by omega, by omega, ?_⟩
  have split : code - other.first = (code - range.first) + (range.first - other.first) := by omega
  have inner : other.step ∣ code - range.first :=
    Nat.dvd_trans (Nat.dvd_of_mod_eq_zero step) (Nat.dvd_of_mod_eq_zero stepped)
  rw [split]
  exact Nat.mod_eq_zero_of_dvd (Nat.dvd_add inner (Nat.dvd_of_mod_eq_zero start))

/-- Whether each code point of a range is in some of the others, which is so if the range is within
one of them. -/
def covered (range : CharRange) (others : List CharRange) : Bool :=
  others.any (range.within ·) || range.codes.all fun code => others.any (·.contains code)

theorem any_contains_of_covered {others : List CharRange} (covered : range.covered others = true)
    (inside : range.contains code = true) : others.any (·.contains code) = true := by
  simp only [CharRange.covered, Bool.or_eq_true, List.all_eq_true] at covered
  rcases covered with whole | each
  · obtain ⟨other, member, within⟩ := List.any_eq_true.mp whole
    exact List.any_eq_true.mpr ⟨other, member, contains_of_within within inside⟩
  · exact each code (mem_codes inside)

end CharRange

variable {c : Char}

theorem inRanges_eq_false {ranges others : List CharRange}
    (apart : (ranges.all fun range => others.all fun other => range.apart other) = true)
    (inside : inRanges ranges c = true) : inRanges others c = false := by
  obtain ⟨range, member, contains⟩ := List.any_eq_true.mp inside
  rw [inRanges, List.any_eq_false]
  intro other another
  have separate := List.all_eq_true.mp (List.all_eq_true.mp apart range member) other another
  simp [CharRange.not_contains_of_apart separate contains]

theorem inRanges_of_isDigit (digit : c.isDigit = true) :
    inRanges [⟨0x30, 0x39, 1⟩] c = true := by
  simp only [Char.isDigit, Bool.and_eq_true, decide_eq_true_eq, ge_iff_le, UInt32.le_iff_toNat_le]
    at digit
  simp only [inRanges, List.any_cons, List.any_nil, Bool.or_false, CharRange.contains_iff]
  exact ⟨digit.1, digit.2, Nat.mod_one _⟩

@[elab_as_elim] theorem ascii_induction {motive : Char → Prop}
    (all : ∀ code < 128, motive (Char.ofNat code)) (c : Char) (ascii : c.toNat < 128) : motive c :=
  Char.ofNat_toNat c ▸ all _ ascii

theorem isBlank_eq_false_of_isDigit (digit : c.isDigit = true) : isBlank c = false :=
  inRanges_eq_false (by decide) (inRanges_of_isDigit digit)

theorem isLowercase_eq_false_of_isUppercase (upper : isUppercase c = true) :
    isLowercase c = false :=
  inRanges_eq_false (by decide +kernel) upper

theorem isBlank_eq_false_of_isUppercase (upper : isUppercase c = true) : isBlank c = false :=
  inRanges_eq_false (by decide +kernel) upper

theorem isBlank_eq_false_of_isLowercase (lower : isLowercase c = true) : isBlank c = false :=
  inRanges_eq_false (by decide +kernel) lower

namespace CaseShift

/-- The lower-case forms of the characters in a range. -/
def lowered (shift : CaseShift) : CharRange :=
  ⟨(shift.range.first + shift.offset).toNat, (shift.range.last + shift.offset).toNat,
    shift.range.step⟩

/-- Whether the lower-case forms are code points of lower-case characters. -/
def lowers (shift : CaseShift) : Bool :=
  decide (0 ≤ shift.range.first + shift.offset) &&
    (shift.lowered.last.blt 0xd800 ||
      (Nat.blt 0xdfff shift.lowered.first && shift.lowered.last.blt 0x110000)) &&
    shift.lowered.covered lowercaseRanges

theorem isLowercase_of_lowers {shift : CaseShift} (lowers : shift.lowers = true)
    (inside : shift.range.contains c.toNat = true) :
    isLowercase (Char.ofNat (c.toNat + shift.offset).toNat) = true := by
  simp only [CaseShift.lowers, Bool.and_eq_true, Bool.or_eq_true, decide_eq_true_eq, Nat.blt_eq]
    at lowers
  obtain ⟨⟨positive, valid⟩, covered⟩ := lowers
  obtain ⟨lower, upper, stepped⟩ := (CharRange.contains_iff _ _).mp inside
  have shifted : shift.lowered.contains (c.toNat + shift.offset).toNat = true := by
    rw [CharRange.contains_iff]
    have distance : (c.toNat + shift.offset).toNat - (shift.range.first + shift.offset).toNat =
        c.toNat - shift.range.first := by omega
    refine ⟨by simp only [lowered]; omega, by simp only [lowered]; omega, ?_⟩
    simp only [lowered, distance, stepped]
  have found := CharRange.any_contains_of_covered covered shifted
  obtain ⟨above, below, -⟩ := (CharRange.contains_iff _ _).mp shifted
  have scalar : (c.toNat + shift.offset).toNat.isValidChar := by
    rcases valid with low | ⟨past, high⟩
    · exact .inl (by omega)
    · exact .inr ⟨by omega, by omega⟩
  have code : (Char.ofNat (c.toNat + shift.offset).toNat).toNat =
      (c.toNat + shift.offset).toNat := by
    rw [Char.ofNat, dif_pos scalar]
    rfl
  rw [isLowercase, inRanges, code]
  exact found

end CaseShift

theorem lowercaseShifts_lower : ∀ shift ∈ lowercaseShifts, shift.lowers = true :=
  List.all_eq_true.mp (by decide +kernel)

theorem lowercase_cases (c : Char) :
    c = '\u0130' ∨ lowercase c = [c] ∨ ∃ d, lowercase c = [d] ∧ isLowercase d = true := by
  unfold lowercase
  split
  · next dotted => exact .inl dotted
  · split
    · next shift found =>
      have member := List.mem_of_find?_eq_some found
      have inside := List.find?_some found
      exact .inr (.inr
        ⟨_, rfl, CaseShift.isLowercase_of_lowers (lowercaseShifts_lower shift member) inside⟩)
    · exact .inr (.inl rfl)

end Docscript.Text
