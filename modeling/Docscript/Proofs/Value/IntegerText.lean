import Docscript.Proofs.Expression.Integers
import Docscript.Proofs.Expression.Printing
import Docscript.Proofs.Template.Keys
import Docscript.Proofs.Text.Numeral
import Docscript.Proofs.Text.Trimming

set_option autoImplicit false

namespace Docscript

open Number (IntegerRange)

namespace Binary64

theorem ofDecimal?_of_lt {m : Nat} (positive : 0 < m) (bound : m < 2 ^ 64) (negative : Bool) :
    ofDecimal? negative m 0 = ofQuotient? negative m 1 := by
  have short : m.log2 < 64 := log2_lt_of_lt bound (by decide)
  have small : ¬ (m = 0 ∨ (m.log2 : Int) / 3 + 1 + 0 < -330) := by omega
  have finite : ¬ 310 < (m.log2 : Int) / 4 + 0 := by omega
  have scaled : m * Nat.pow 10 (0 : Int).toNat = m := Nat.mul_one m
  rw [ofDecimal?, if_neg small, if_neg finite, if_pos (le_refl _), scaled]

theorem ofText?_of_isDigit {text : List Char} (digits : ∀ c ∈ text, c.isDigit = true) :
    ofText? text =
      (Text.readLiteral? text).bind fun l => ofDecimal? false l.coefficient l.exponent := by
  unfold ofText?
  split
  next negative literal same =>
    split at same
    · exact absurd (digits '-' List.mem_cons_self) (by decide)
    · exact absurd (digits '+' List.mem_cons_self) (by decide)
    · cases same
      rfl

theorem ofText?_writeInt {n : Int} (positive : 0 < n) (bound : n < 2 ^ 64) :
    ofText? (Text.writeInt n) = ofInt? n := by
  have sign : decide (n < 0) = false := decide_eq_false (by omega)
  have size : 0 < n.natAbs ∧ n.natAbs < 2 ^ 64 := by omega
  rw [Text.writeInt_of_nonneg positive.le, ofText?_of_isDigit fun _ => Text.isDigit_of_mem_writeNat,
    Text.readLiteral?_writeNat, Option.bind_some, ofDecimal?_of_lt size.1 size.2, ofInt?, sign]

/-- Among data a double has a point or an exponent. -/
theorem exists_mark_of_text (x : Binary64) : ∃ c ∈ x.text, c = '.' ∨ c = 'e' := by
  rw [text]
  split
  · exact ⟨'.', List.mem_append_right _ (by decide), .inl rfl⟩
  · dsimp only
    split
    · exact ⟨'.', by simp, .inl rfl⟩
    · exact ⟨'e', by simp [Decimal.scientific], .inr rfl⟩

end Binary64

namespace Number

variable {n : Int} {text : List Char}

theorem read?_of_trim_eq {other : List Char} (same : Text.trim text = Text.trim other) :
    read? text = read? other := by
  rw [read?, read?, same]

/-- Blanks around a number count for nothing. -/
theorem read?_padded {before after : List Char} (leading : ∀ c ∈ before, Text.isBlank c = true)
    (trailing : ∀ c ∈ after, Text.isBlank c = true) (text : List Char) :
    read? (before ++ text ++ after) = read? text :=
  read?_of_trim_eq (by rw [Text.trim_append_blank trailing, Text.trim_blank_append leading])

theorem read?_writeInt (n : Int) :
    read? (Text.writeInt n) =
      match Text.int64? n with
      | some k => some (int k.toInt)
      | none => (Binary64.ofText? (Text.writeInt n)).map double := by
  have trimmed : Text.trim (Text.writeInt n) = Text.writeInt n :=
    Text.trim_of_not_blank fun _ => Text.isBlank_eq_false_of_mem_writeInt
  have plain : (Text.writeInt n).any (fun c => c = '.' ∨ c = 'e' ∨ c = 'E') = false := by
    have other {c mark : Char} (member : c ∈ Text.writeInt n) (sign : mark ≠ '-')
        (digit : mark.isDigit = false) : c ≠ mark := Text.ne_of_mem_writeInt member sign digit
    rw [List.any_eq_false]
    intro c member
    rw [decide_eq_true_iff, not_or, not_or]
    exact ⟨other member (by decide) (by decide), other member (by decide) (by decide),
      other member (by decide) (by decide)⟩
  rw [read?, trimmed]
  simp only [plain, Text.readInt64?_writeInt]
  cases Text.int64? n <;> rfl

/-- What the text of an integer is read as: the integer itself, with the same text, exactly if 64
bits with a sign hold it, and a double with the rounded value otherwise. -/
structure Rereads (n : Int) (number : Number) : Prop where
  exact : number = int n ↔ n < 2 ^ 63
  text : number.text = (int n).text ↔ n < 2 ^ 63
  nearest : number = int n ∨ ∃ x, number = double x ∧ x.scaled = Binary64.nearestInt n * 2 ^ 1074

theorem rereads_int (bound : n < 2 ^ 63) : Rereads n (int n) :=
  ⟨iff_of_true rfl bound, iff_of_true rfl bound, .inl rfl⟩

theorem rereads_double {x : Binary64} (bound : ¬ n < 2 ^ 63)
    (nearest : x.scaled = Binary64.nearestInt n * 2 ^ 1074) : Rereads n (double x) := by
  refine ⟨iff_of_false (fun same => by cases same) bound, iff_of_false ?_ bound,
    .inr ⟨x, rfl, nearest⟩⟩
  intro same
  obtain ⟨c, member, mark⟩ := Binary64.exists_mark_of_text x
  rw [text, text, String.ofList_inj] at same
  rw [same] at member
  rcases mark with rfl | rfl
  · exact Text.ne_of_mem_writeInt member (by decide) (by decide) rfl
  · exact Text.ne_of_mem_writeInt member (by decide) (by decide) rfl

/-- The reader tries 64 bits with a sign and goes on to doubles, also where 64 bits without a sign
would do. -/
theorem exists_read?_writeInt (range : IntegerRange n) :
    ∃ number, read? (Text.writeInt n) = some number ∧ Rereads n number := by
  obtain ⟨lower, upper⟩ := range
  by_cases bound : n < 2 ^ 63
  · have held : Text.int64? n = some (Int64.ofInt n) :=
      Text.int64?_eq_some_iff.mpr
        (Int64.toInt_ofInt_of_le (Int64.toInt_minValue ▸ lower) bound)
    have value := Text.int64?_eq_some_iff.mp held
    refine ⟨int n, ?_, rereads_int bound⟩
    rw [read?_writeInt, held]
    simp only [value]
  · have missed : Text.int64? n = none := by
      rw [Option.eq_none_iff_forall_ne_some]
      intro k held
      have less := Int64.toInt_lt k
      rw [Text.int64?_eq_some_iff.mp held] at less
      exact bound less
    obtain ⟨x, made, nearest⟩ := Binary64.exists_ofInt? ⟨lower, upper⟩
    refine ⟨double x, ?_, rereads_double bound nearest⟩
    rw [read?_writeInt, missed]
    simp only [Binary64.ofText?_writeInt (by omega) upper, made, Option.map_some]

end Number

theorem Value.toList_display_int (n : Int) : (int n).display.toList = Text.writeInt n :=
  String.toList_ofList

theorem Value.ofText_of_read? {text : List Char} {number : Number}
    (read : Number.read? text = some number) : ofText text = .number number := by
  have other (word : String) (unread : Number.read? word.toList = none) :
      String.ofList (Text.trim text) ≠ word := by
    rintro rfl
    rw [String.toList_ofList, Number.read?_of_trim_eq (Text.trim_trim text), read] at unread
    cases unread
  rw [ofText]
  split
  · next same => exact absurd same (other "true" (by decide))
  · next same => exact absurd same (other "false" (by decide))
  · rw [read]

namespace Template

variable {options : CompileOptions} {c : Context} {before after inner : List Char}

theorem pieces_placeholder_between (leading : ∀ ch ∈ before, ch ≠ '$')
    (trailing : ∀ ch ∈ after, ch ≠ '$') (nonempty : inner ≠ [])
    (unbraced : ∀ ch ∈ inner, isBrace ch = false) :
    pieces (before ++ (Piece.placeholder inner).source ++ after) =
      before.map .literal ++ .placeholder inner :: after.map .literal := by
  have last := pieces_append_of_plain trailing []
  rw [List.append_nil, pieces, List.append_nil] at last
  rw [List.append_assoc, pieces_append_of_plain leading,
    pieces_placeholder_append nonempty unbraced, last]

theorem compile_placeholder_between (leading : ∀ ch ∈ before, ch ≠ '$')
    (trailing : ∀ ch ∈ after, ch ≠ '$') (more : before ++ after ≠ [])
    (unbraced : ∀ ch ∈ inner, isBrace ch = false) {value : Value}
    (found : c.expanded.find? (Text.trim inner) = some value) :
    compile options c
        (.string (String.ofList (before ++ (Piece.placeholder inner).source ++ after))) =
      .ofText (before ++ value.display.toList ++ after) := by
  have nonempty : inner ≠ [] := by
    rintro rfl
    exact Context.nonempty_of_find? found rfl
  have parts := pieces_placeholder_between leading trailing nonempty unbraced
  have placed :
      textHasPlaceholder (before ++ (Piece.placeholder inner).source ++ after) = true := by
    rw [textHasPlaceholder, parts, List.any_append, List.any_cons, Piece.isPlaceholder,
      Bool.true_or, Bool.or_true]
  -- A part before or after it keeps the placeholder from standing for its value as it is.
  have composite : ¬ ∃ other, pieces (before ++ (Piece.placeholder inner).source ++ after) =
      [.placeholder other] := by
    rintro ⟨other, single⟩
    have count := congrArg List.length (parts.symm.trans single)
    have size := List.length_pos_iff.mpr more
    simp only [List.length_append, List.length_cons, List.length_map, List.length_nil] at count size
    omega
  have filled : fill options c.expanded (before ++ (Piece.placeholder inner).source ++ after) =
      before ++ value.display.toList ++ after := by
    have kept (text : List Char) :
        (text.map Piece.literal).flatMap (Piece.fill options c.expanded) = text := by
      rw [List.flatMap_map]
      exact List.flatMap_singleton' text
    rw [fill, parts, List.flatMap_append, List.flatMap_cons, kept, kept, Piece.fill, found,
      List.append_assoc]
  rw [compile, compileText, String.toList_ofList, if_pos placed,
    interpolate_of_not_single composite, filled]

end Template

namespace Operand

variable {c : Context} {text path : String} {number : Number}

/-- On the right side a numeric word is its number, also if there is a variable of that name. -/
theorem resolveRight_of_read? (read : Number.read? text.toList = some number) :
    (word text).resolveRight c = .value (.number number) := by
  have other (name : String) (unread : Number.read? name.toList = none) : text ≠ name := by
    rintro rfl
    rw [read] at unread
    cases unread
  rw [resolveRight, read]
  · exact other "null" (by decide)
  · exact other "undefined" (by decide)
  · exact other "nil" (by decide)
  · exact other "true" (by decide)
  · exact other "false" (by decide)

theorem isIn_object (read : Number.read? text.toList = some number)
    {entries : Entries Value} (found : c.get? path = some (.object entries)) :
    (word text).isIn c (word path) = Entries.contains entries number.text := by
  simp only [isIn, resolveRight_of_read? read, found]

end Operand

namespace Expression

theorem display_int_ne (n : Int) {text : String}
    (marked : (text.toList.any fun mark => mark != '-' && !mark.isDigit) = true) :
    (Value.int n).display ≠ text := by
  rintro rfl
  rw [List.any_eq_true, Value.toList_display_int] at marked
  obtain ⟨mark, member, outside⟩ := marked
  rw [Bool.and_eq_true, bne_iff_ne, Bool.not_eq_true'] at outside
  exact Text.ne_of_mem_writeInt member outside.1 outside.2 rfl

theorem word_display_int (n : Int) : Word (Value.int n).display := by
  constructor
  · rw [Value.toList_display_int]
    refine ⟨Text.writeInt_ne_nil n, ?_, ?_⟩
    · intro c member
      exact ⟨Text.isBlank_eq_false_of_mem_writeInt member,
        Text.ne_of_mem_writeInt member (by decide) (by decide),
        Text.ne_of_mem_writeInt member (by decide) (by decide)⟩
    · intro c first
      have member := List.mem_of_head? first
      exact ⟨Text.ne_of_mem_writeInt member (by decide) (by decide),
        Text.ne_of_mem_writeInt member (by decide) (by decide)⟩
  · apply Token.ofWord_of_not_reserved
    intro reserved
    -- No reserved word is made of digits and signs alone, which is checked on the list of them.
    have marked : ∀ word ∈ Token.reserved,
        (word.toList.any fun mark => mark != '-' && !mark.isDigit) = true := by decide
    exact display_int_ne n (marked _ reserved) rfl

end Expression

namespace Value

open Template (Piece)

/-- What the text of an integer is read as by itself, with blanks around it, in a template and in
front of `in`. It is the integer exactly if 64 bits with a sign hold it. -/
theorem integer_text_reread {n : Int} (range : IntegerRange n) :
    ∃ number, number.Rereads n ∧
      Number.read? (int n).display.toList = some number ∧
      (∀ before after : List Char, (∀ ch ∈ before ++ after, Text.isBlank ch = true) →
        ofText (before ++ (int n).display.toList ++ after) = .number number ∧
        ∀ (options : CompileOptions) (c : Context) (inner : List Char), before ++ after ≠ [] →
          (∀ ch ∈ inner, Template.isBrace ch = false) →
          c.expanded.find? (Text.trim inner) = some (int n) →
            Template.compile options c
                (.string (String.ofList (before ++ (Piece.placeholder inner).source ++ after))) =
              .number number) ∧
      ∀ (c : Context) (path : String) (entries : Entries Value), Expression.Word path →
        c.get? path = some (.object entries) →
          Expression.evaluate (Expression.written (int n).display "in" path) c =
            .ok (entries.contains number.text) := by
  obtain ⟨number, read, rereads⟩ := Number.exists_read?_writeInt range
  rw [← toList_display_int] at read
  refine ⟨number, rereads, read, ?_, ?_⟩
  · intro before after blank
    obtain ⟨leading, trailing⟩ := List.forall_mem_append.mp blank
    have scalar : ofText (before ++ (int n).display.toList ++ after) = .number number :=
      ofText_of_read? (by rw [Number.read?_padded leading trailing, read])
    refine ⟨scalar, ?_⟩
    intro options c inner more unbraced found
    have plain {ch : Char} (blank : Text.isBlank ch = true) : ch ≠ '$' := by
      rintro rfl
      exact absurd blank (by decide)
    rw [Template.compile_placeholder_between (fun ch member => plain (leading ch member))
      (fun ch member => plain (trailing ch member)) more unbraced found, scalar]
  · intro c path entries word found
    rw [Expression.evaluate_written_in (Expression.word_display_int n)
      (Expression.display_int_ne n (by decide)) word, Operand.isIn_object read found]

/-- The largest integer that is read again, between blanks, in a template and among keys. -/
theorem integer_text_reread_of_largest :
    let c : Context := ⟨[("x", .int 9223372036854775807),
      ("o", .object [("9223372036854775807", .bool true)])]⟩
    IntegerRange 9223372036854775807 ∧
      ofText "\t9223372036854775807 ".toList = .int 9223372036854775807 ∧
      Template.compile {} c (.string " ${ x }") = .int 9223372036854775807 ∧
      Expression.evaluate "9223372036854775807 in o" c = .ok true := by
  intro c
  have range : IntegerRange 9223372036854775807 := by decide
  obtain ⟨number, rereads, -, padded, among⟩ := integer_text_reread range
  obtain rfl : number = .int 9223372036854775807 := rereads.exact.mpr (by decide)
  have shown : (int 9223372036854775807).display = "9223372036854775807" := rfl
  have trimmed : Text.trim " x ".toList = "x".toList := by decide
  have calm : ¬ c.hasDotted = true := by decide
  have found : c.expanded.find? (Text.trim " x ".toList) = some (.int 9223372036854775807) := by
    rw [trimmed, Context.expanded, if_neg calm]
    exact Context.find?_of_name (by decide) rfl
  have stored : c.get? "o" = some (.object [("9223372036854775807", .bool true)]) :=
    Context.find?_of_name (by decide) rfl
  have template : String.ofList ([' '] ++ (Piece.placeholder " x ".toList).source ++ []) =
      " ${ x }" := by decide
  have unbraced : ∀ ch ∈ " x ".toList, Template.isBrace ch = false := by simp [Template.isBrace]
  have scalar := (padded ['\t'] [' '] (List.all_eq_true.mp (by decide))).1
  have compiled := (padded [' '] [] (List.all_eq_true.mp (by decide))).2 {} c " x ".toList
    (by decide) unbraced found
  have word : Expression.Word "o" := ⟨by decide, rfl⟩
  have evaluated := among c "o" _ word stored
  rw [shown] at scalar evaluated
  rw [template] at compiled
  exact ⟨range, scalar, compiled, evaluated⟩

/-- The first integer that 64 bits with a sign do not hold is not read again. -/
theorem not_forall_read?_display_int :
    ¬ ∀ n, IntegerRange n → Number.read? (int n).display.toList = some (.int n) := by
  intro always
  have range : IntegerRange 9223372036854775808 := by decide
  obtain ⟨number, read, rereads⟩ := Number.exists_read?_writeInt range
  have claimed := always 9223372036854775808 range
  rw [toList_display_int, read, Option.some.injEq] at claimed
  exact absurd (rereads.exact.mp claimed) (by decide)

end Value

end Docscript
