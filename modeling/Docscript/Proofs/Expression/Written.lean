import Docscript.Expression.Evaluation
import Docscript.Proofs.Expression.Scanning

/- A word on the left side of a comparison names a variable first, on the right side last; the two
rules agree on a name that is no literal and no number. -/

set_option autoImplicit false

namespace Docscript

namespace Expression

/-- A text that is one bare word and not a reserved one. -/
structure Word (text : String) : Prop where
  bare : Token.Bare text.toList
  unreserved : Token.ofWord text = .word text

/-- A name that is neither a literal of right sides nor a number. -/
structure Named (name : String) : Prop where
  nonliteral : name ∉ ["null", "undefined", "nil", "true", "false"]
  unread : Number.read? name.toList = none

/-- A name that stands for its variable on both sides of a comparison: one bare word that is neither
reserved, nor a literal, nor a number. -/
structure Variable (name : String) : Prop where
  bare : Token.Bare name.toList
  unreserved : Token.ofWord name = .word name
  nonliteral : name ∉ ["if", "null", "undefined", "nil", "true", "false"]
  unread : Number.read? name.toList = none

theorem Variable.word {name : String} (named : Variable name) : Word name :=
  ⟨named.bare, named.unreserved⟩

theorem Variable.named {name : String} (named : Variable name) : Named name :=
  ⟨fun member => named.nonliteral (List.mem_cons_of_mem "if" member), named.unread⟩

theorem Variable.ne_if {name : String} (named : Variable name) : name ≠ "if" :=
  fun same => named.nonliteral (by simp [same])

/-- The text of a comparison. -/
def written (left symbol right : String) : String := left ++ " " ++ symbol ++ " " ++ right

variable {c : Context} {x y symbol : String}

theorem toList_written :
    (written x symbol y).toList = x.toList ++ ' ' :: (symbol.toList ++ ' ' :: y.toList) := by
  simp [written]

theorem parse_word (word : Word x) (unlike : x ≠ "if") :
    parse x = .ok (.truthy (.word x)) := by
  have blankless : ∀ c ∈ x.toList, Text.isBlank c = false := fun c member =>
    (word.bare.unbroken c member).1
  have plain : ¬ StartsWithIf x.toList := by
    rintro (alone | ⟨rest, lead⟩)
    · exact unlike (String.toList_inj.mp alone)
    · have blank := blankless ' ' (by simp [← lead])
      exact absurd blank (by decide)
  have scanned : Token.scan (withoutIf x.toList) = .ok [.word x] := by
    rw [withoutIf_of_not_startsWithIf (Text.trim_of_not_blank blankless) plain,
      Token.scan_bare word.bare, String.ofList_toList, word.unreserved]
  rw [parse_of_scan scanned]
  rfl

theorem scan_written (left : Word x) (right : Word y) (bare : Token.Bare symbol.toList) :
    Token.scan (written x symbol y).toList =
      .ok [.word x, Token.ofWord symbol, .word y] := by
  have blank : Text.isBlank ' ' = true := by decide
  rw [toList_written, Token.scan_bare_cons left.bare blank, Token.scan_bare_cons bare blank,
    Token.scan_bare right.bare]
  simp only [String.ofList_toList, left.unreserved, right.unreserved]
  rfl

theorem parse_written (left : Word x) (unlike : x ≠ "if") (right : Word y)
    (bare : Token.Bare symbol.toList) {expression : Expression}
    (formed : ofTokens [.word x, Token.ofWord symbol, .word y] = .ok expression) :
    parse (written x symbol y) = .ok expression := by
  have other : x.toList ≠ "if".toList := fun same => unlike (String.toList_inj.mp same)
  have plain := not_startsWithIf_of_bare left.bare other (symbol.toList ++ ' ' :: y.toList)
  have trimmed := trim_between_bare left.bare right.bare (' ' :: (symbol.toList ++ [' ']))
  have whole : x.toList ++ ' ' :: (symbol.toList ++ [' ']) ++ y.toList =
      x.toList ++ ' ' :: (symbol.toList ++ ' ' :: y.toList) := by
    simp
  rw [whole] at trimmed
  have scanned : Token.scan (withoutIf (written x symbol y).toList) =
      .ok [.word x, Token.ofWord symbol, .word y] := by
    rw [toList_written, withoutIf_of_not_startsWithIf trimmed plain, ← toList_written,
      scan_written left right bare]
  rw [parse_of_scan scanned, formed]
  rfl

/-- After `if` the left side may be any word, even `if` itself. -/
theorem parse_if_written (left : Word x) (right : Word y) (bare : Token.Bare symbol.toList)
    {expression : Expression}
    (formed : ofTokens [.word x, Token.ofWord symbol, .word y] = .ok expression) :
    parse ("if " ++ written x symbol y) = .ok expression := by
  have reserved : Token.Bare "if".toList := by decide
  have trimmed := trim_between_bare reserved right.bare
    (' ' :: (x.toList ++ ' ' :: (symbol.toList ++ [' '])))
  have whole : "if".toList ++ ' ' :: (x.toList ++ ' ' :: (symbol.toList ++ [' '])) ++ y.toList =
      "if ".toList ++ (written x symbol y).toList := by
    simp [toList_written]
  rw [whole] at trimmed
  have scanned : Token.scan (withoutIf ("if " ++ written x symbol y).toList) =
      .ok [.word x, Token.ofWord symbol, .word y] := by
    rw [String.toList_append, withoutIf_of_lead trimmed, Token.scan_trimStart,
      scan_written left right bare]
  rw [parse_of_scan scanned, formed]
  rfl

theorem evaluate_written (left : Variable x) (right : Variable y) {comparison : Comparison}
    (bare : Token.Bare symbol.toList) (token : Token.ofWord symbol = .comparison comparison) :
    evaluate (written x symbol y) c = .ok (comparison.holds c (.word x) (.word y)) := by
  have formed : ofTokens [.word x, Token.ofWord symbol, .word y] =
      .ok (.compare (.word x) comparison (.word y)) := by
    rw [token]
    rfl
  rw [evaluate, parse_written left.word left.ne_if right.word bare formed]
  rfl

theorem evaluate_written_in (left : Word x) (unlike : x ≠ "if") (right : Word y) :
    evaluate (written x "in" y) c = .ok ((Operand.word x).isIn c (.word y)) := by
  have formed : ofTokens [.word x, Token.ofWord "in", .word y] =
      .ok (.compare (.word x) .isIn (.word y)) := rfl
  rw [evaluate, parse_written left unlike right (by decide) formed]
  rfl

end Expression

/-- What the value of a variable, if it has one, stands for. -/
def Resolved.ofVariable : Option Value → Resolved
  | some v => .value v
  | none => .undefined

namespace Operand

variable {c : Context} {name : String} {value : Value}

theorem resolveLeft_word (found : c.get? name = some value) :
    (word name).resolveLeft c = .value value := by
  rw [resolveLeft, found]

theorem resolveLeft_named (named : Expression.Named name) :
    (word name).resolveLeft c = .ofVariable (c.get? name) := by
  cases found : c.get? name with
  | some value => exact resolveLeft_word found
  | none =>
    rw [resolveLeft, found, named.unread]
    rfl

/-- On the right side a variable comes last, after literals and numbers. -/
theorem resolveRight_named (named : Expression.Named name) :
    (word name).resolveRight c = .ofVariable (c.get? name) := by
  have other := named.nonliteral
  rw [resolveRight, named.unread]
  · cases c.get? name <;> rfl
  all_goals
    rintro rfl
    exact other (by decide)

theorem resolveRight_word (named : Expression.Variable name) (found : c.get? name = some value) :
    (word name).resolveRight c = .value value := by
  rw [resolveRight_named named.named, found]
  rfl

end Operand

end Docscript
