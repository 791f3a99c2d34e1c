import Docscript.Proofs.Operation.Folding

/- A word is hidden in a part of a name if it begins at a character that stays upper-case, but only
once the characters around it are in lower case. -/

set_option autoImplicit false

namespace Docscript

namespace OperationName

open Text (isUppercase isLowercase lowercase)

variable {c : Char} {previous last : Option Char}

/-- Whether a part goes on with an upper-case character that is written in lower case right after
`u`. -/
def lowersNext (u : Char) (after : List Char) : Bool :=
  match after with
  | [] => false
  | n :: rest => isUppercase n && !keepsCase n && !beginsWord (some u) rest.head?

/-- Whether a word begins at `u` only once the characters around it are in lower case: `u` stays
upper-case after an upper-case character, no word begins there yet, and that character is written in
lower case or is followed by a lower-case one in the end. -/
def hides (previous : Option Char) (u : Char) (after : List Char) : Bool :=
  match previous with
  | none => false
  | some p =>
    keepsCase u && isUppercase p && !beginsWord (some p) after.head? &&
      if keepsCase p then lowersNext u after else p != '\u0130'

/-- Whether no word is hidden in a part, after the character `previous` of it. -/
def settled (previous : Option Char) : List Char → Bool
  | [] => true
  | c :: rest => !hides previous c rest && settled (some c) rest

/-- What is written last after a character of a part. -/
def Follows (previous last : Option Char) : Prop :=
  match previous with
  | none => last = none
  | some p =>
    if isSeparator p then last = none ∨ last = some '_'
    else if isUppercase p then last = (lowercase p).getLast?
    else last = some p

theorem beginsWord_of_isUppercase {p : Char} (upper : isUppercase p = true) (next : Option Char) :
    beginsWord (some p) next = next.any isLowercase := by
  have lower := Text.isLowercase_eq_false_of_isUppercase upper
  have digit : p.isDigit = false := by
    rw [Bool.eq_false_iff]
    intro digit
    rw [isUppercase_eq_false_of_isDigit digit] at upper
    cases upper
  simp [beginsWord, lower, digit, upper]

/-- Where no lower-case character comes after `u`, one is written after it only if the next
character is written in lower case. -/
theorem any_isLowercase_folded {u : Char} (upper : isUppercase u = true) (after : List Char)
    (plain : after.head?.any isLowercase = false) :
    (folded (some u) (some u) after).head?.any isLowercase = lowersNext u after := by
  cases after with
  | nil => rfl
  | cons n rest =>
    have gapped : gap (some u) = ['_'] := by
      rcases gap_eq_nil_or (some u) with ⟨-, same⟩ | ⟨one, -⟩
      · rw [Option.map_some, Option.some.injEq] at same
        rw [← same] at upper
        exact absurd upper (by decide)
      · exact one
    have underscore : isLowercase '_' = false := by decide
    rw [folded, lowersNext]
    split
    · next separates =>
      rw [gapped, (plain_of_isSeparator separates).1]
      simp [underscore]
    · split
      · next upperNext =>
        split
        · next begins =>
          rw [gapped, begins]
          simp [underscore]
        · next within =>
          rw [Bool.not_eq_true] at within
          rw [within, upperNext, List.nil_append]
          rcases lowercase_cases_of_isUppercase upperNext with keeps | rfl | ⟨d, form, lower, -⟩
          · have own := (keepsCase_iff.mp keeps).2
            have upperOnly := Text.isLowercase_eq_false_of_isUppercase upperNext
            simp [own, keeps, upperOnly]
          · rfl
          · simp [form, not_keepsCase_of_lowers form lower, lower]
      · next other =>
        rw [List.head?_cons, Option.any_some] at plain ⊢
        rw [plain]
        simp [other]

theorem beginsWord_of_follows {u : Char} {after : List Char} (follows : Follows previous last)
    (keeps : keepsCase u = true) (within : beginsWord previous after.head? = false) :
    beginsWord last (folded (some u) (some u) after).head? = hides previous u after := by
  cases previous with
  | none =>
    rw [follows]
    rfl
  | some p =>
    rw [Follows] at follows
    rw [hides, keeps, within]
    split at follows
    · next separates =>
      rw [(plain_of_isSeparator separates).1]
      rcases follows with rfl | rfl
      · rfl
      · have underscore : isSeparator '_' = true := by decide
        rw [beginsWord_of_isSeparator underscore]
        rfl
    · split at follows
      · next upper =>
        rw [beginsWord_of_isUppercase upper] at within
        rw [upper, follows]
        -- The first folding looks at `p` and the character after `u`, the second one at what they
        -- are written as.
        rcases lowercase_cases_of_isUppercase upper with kept | rfl | ⟨d, form, lower, -⟩
        · rw [(keepsCase_iff.mp kept).2, List.getLast?_singleton, beginsWord_of_isUppercase upper,
            any_isLowercase_folded (keepsCase_iff.mp keeps).1 after within, kept]
          rfl
        · have dot : (lowercase '\u0130').getLast? = some '\u0307' := rfl
          have plain : isLowercase '\u0307' = false ∧ isUppercase '\u0307' = false := by decide
          have lowered : keepsCase '\u0130' = false := rfl
          rw [dot, lowered]
          simp [beginsWord, plain]
        · have dotless : p ≠ '\u0130' := by
            rintro rfl
            cases form
          rw [form, List.getLast?_singleton, not_keepsCase_of_lowers form lower]
          simp [beginsWord, lower, dotless]
      · next other =>
        rw [Bool.not_eq_true] at other
        have plain : (isLowercase p || p.isDigit) = false := by
          rw [beginsWord] at within
          split at within
          · cases within
          · next neither => exact Bool.not_eq_true _ ▸ neither
        rw [follows, other]
        simp [beginsWord, plain, other]

theorem unbroken_gap_append (last : Option Char) (text : List Char) :
    Unbroken last (gap last ++ text) ↔ Unbroken (last.map fun _ => '_') text := by
  have lower : ¬isUppercase '_' = true := by decide
  rcases gap_eq_nil_or last with ⟨none, same⟩ | ⟨one, map, -⟩
  · rw [none, same, List.nil_append]
  · rw [one, map, List.singleton_append, Unbroken]
    exact and_iff_right fun upper => absurd upper lower

theorem unbroken_append_of_plain {front text : List Char}
    (plain : ∀ c ∈ front, isUppercase c = false) :
    Unbroken last (front ++ text) ↔ Unbroken (front.getLast?.or last) text := by
  induction front generalizing last with
  | nil => rfl
  | cons c rest ih =>
    have lower := plain c List.mem_cons_self
    rw [List.cons_append, Unbroken, ih fun d member => plain d (List.mem_cons_of_mem _ member),
      and_iff_right fun upper => absurd (lower.symm.trans upper) (by decide), getLast?_cons_or]

theorem isUppercase_eq_false_of_mem_lowercase (lowered : keepsCase c = false) {d : Char}
    (member : d ∈ lowercase c) (upper : isUppercase c = true) : isUppercase d = false := by
  rw [Bool.eq_false_iff]
  intro both
  rw [((of_mem_lowercase upper member).2.2 both).1] at lowered
  cases lowered

theorem hides_of_not_keepsCase (lowered : keepsCase c = false) (after : List Char) :
    hides previous c after = false := by
  cases previous with
  | none => rfl
  | some p => rw [hides, lowered, Bool.false_and, Bool.false_and, Bool.false_and]

theorem hides_of_beginsWord {after : List Char} (begins : beginsWord previous after.head? = true) :
    hides previous c after = false := by
  cases previous with
  | none => rfl
  | some p => rw [hides, begins, Bool.not_true, Bool.and_false, Bool.false_and]

/-- No word begins in what is written for a part exactly if none is hidden in the part. -/
theorem unbroken_folded_iff (follows : Follows previous last) (part : List Char) :
    Unbroken last (folded previous last part) ↔ settled previous part = true := by
  -- `Follows` is kept by each of the three steps; only an upper-case character that stays what it
  -- is can be one at which a word begins.
  induction part generalizing previous last with
  | nil => simp [folded, Unbroken, settled]
  | cons c rest ih =>
    rw [folded, settled, Bool.and_eq_true, Bool.not_eq_true']
    split
    · next separates =>
      have after : Follows (some c) (last.map fun _ => '_') := by
        rw [Follows, if_pos separates]
        cases last with
        | none => exact .inl rfl
        | some d => exact .inr rfl
      have lowered : keepsCase c = false := by
        rw [keepsCase, (plain_of_isSeparator separates).1, Bool.false_and]
      rw [unbroken_gap_append, ih after, and_iff_right (hides_of_not_keepsCase lowered rest)]
    · next letter =>
      split
      · next upper =>
        have after : Follows (some c) (lowercase c).getLast? := by
          rw [Follows, if_neg letter, if_pos upper]
        cases keeps : keepsCase c with
        | true =>
          have own := (keepsCase_iff.mp keeps).2
          rw [own, List.getLast?_singleton] at after ⊢
          rw [List.singleton_append]
          split
          · next begins =>
            rw [unbroken_gap_append, Unbroken, ih after, hides_of_beginsWord begins]
            exact and_congr_left' ⟨fun _ => rfl, fun _ _ => beginsWord_map_underscore _ _⟩
          · next within =>
            rw [Bool.not_eq_true] at within
            rw [List.nil_append, Unbroken, ih after, beginsWord_of_follows follows keeps within]
            exact and_congr_left' ⟨fun inside => inside upper, fun none _ => none⟩
        | false =>
          have plain (d : Char) (member : d ∈ lowercase c) : isUppercase d = false :=
            isUppercase_eq_false_of_mem_lowercase keeps member upper
          have some := List.getLast?_isSome.mpr (lowercase_ne_nil c)
          have form (before : Option Char) :
              Unbroken before (lowercase c ++ folded (Option.some c) (lowercase c).getLast? rest) ↔
                settled (Option.some c) rest = true := by
            rw [unbroken_append_of_plain plain, Option.or_of_isSome some, ih after]
          rw [and_iff_right (hides_of_not_keepsCase keeps rest)]
          split
          · rw [unbroken_gap_append, form]
          · rw [List.nil_append, form]
      · next other =>
        have after : Follows (some c) (some c) := by rw [Follows, if_neg letter, if_neg other]
        rw [Bool.not_eq_true] at other
        have lowered : keepsCase c = false := by rw [keepsCase, other, Bool.false_and]
        rw [Unbroken, ih after, and_iff_right (hides_of_not_keepsCase lowered rest),
          and_iff_right fun upper => absurd (other.symm.trans upper) (by decide)]

/-- A second folding leaves a part alone exactly if no word is hidden in it. -/
theorem foldPart_foldPart_iff (part : List Char) :
    foldPart (foldPart part) = foldPart part ↔ settled none part = true := by
  rw [foldPart_foldPart_iff_unbroken]
  have start : Follows none none := by rw [Follows]
  exact unbroken_folded_iff start part

/-- No word is hidden where every upper-case character has a lower-case form. -/
theorem settled_of_not_keepsCase {part : List Char} (lowered : ∀ c ∈ part, keepsCase c = false) :
    settled previous part = true := by
  induction part generalizing previous with
  | nil => rfl
  | cons c rest ih =>
    rw [settled, hides_of_not_keepsCase (lowered c List.mem_cons_self),
      ih fun d member => lowered d (List.mem_cons_of_mem _ member)]
    rfl

end OperationName

end Docscript
