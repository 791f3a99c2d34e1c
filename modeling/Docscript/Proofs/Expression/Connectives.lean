import Docscript.Expression.Evaluation
import Docscript.Proofs.Context.Lookup
import Docscript.Proofs.Expression.Joints
import Docscript.Proofs.Expression.Parsing

set_option autoImplicit false

namespace Docscript

namespace Expression

open Grammar

variable {tokens others : List Token} {separator : Token} {Item : Phrase}
  {one other : Expression}

theorem evalAny_append (c : Context) (items more : List Expression) :
    evalAny c (items ++ more) = (evalAny c items || evalAny c more) := by
  induction items with
  | nil => rfl
  | cons item rest ih => rw [List.cons_append, evalAny, evalAny, ih, Bool.or_assoc]

/-- A chain of alternatives is true where one of its items is, also if it is a single item. -/
theorem eval_collapse_any (c : Context) (items : List Expression) :
    eval c (collapse .any items) = evalAny c items := by
  unfold collapse
  split
  · rw [evalAny, evalAny, Bool.or_false]
  · rw [eval]

theorem Grammar.Chain.append {items more : List Expression}
    (first : Chain separator Item tokens items) (second : Chain separator Item others more) :
    Chain separator Item (tokens ++ separator :: others) (items ++ more) := by
  induction first with
  | last derived => exact .more derived second
  | more derived _ ih =>
    rw [List.append_assoc, List.cons_append]
    exact .more derived ih

theorem Grammar.Joined.exists_chain {wrap : List Expression → Expression}
    (joined : Joined wrap separator Item tokens one) :
    ∃ items, Chain separator Item tokens items ∧ one = collapse wrap items := by
  cases joined with
  | alone derived => exact ⟨[one], .last derived, rfl⟩
  | several chained => exact ⟨_, chained, rfl⟩

theorem derives_or (first : Derives tokens one) (second : Derives others other) :
    ∃ both, Derives (tokens ++ .orWord :: others) both ∧
      ∀ c, eval c both = (eval c one || eval c other) := by
  obtain ⟨items, chained, rfl⟩ := first.exists_chain
  obtain ⟨more, further, rfl⟩ := second.exists_chain
  refine ⟨_, joined_of_chain .any (chained.append further), fun c => ?_⟩
  rw [eval_collapse_any, eval_collapse_any, eval_collapse_any, evalAny_append]

theorem derives_and (first : Primary tokens one) (second : Primary others other) :
    Derives (tokens ++ .andWord :: others) (.all [one, other]) :=
  .alone (.several (.more (.plain first) (.last (.plain second))))

variable {text further : List Char}

theorem scan_group (scanned : Token.scan text = .ok tokens) :
    Token.scan ('(' :: (text ++ [')'])) = .ok (.leftParen :: (tokens ++ [.rightParen])) := by
  have closes : Token.scan [')'] = .ok [.rightParen] := rfl
  have inner : Token.scan (text ++ [')']) = (Token.scan [')']).map (tokens ++ ·) :=
    Token.scan_append_joint (.inr (.inr rfl)) text tokens scanned
  rw [closes] at inner
  rw [Token.scan, if_neg (by decide), if_pos rfl, inner]
  rfl

theorem scan_between {word : List Char} (bare : Token.Bare word)
    (first : Token.scan text = .ok tokens) (second : Token.scan further = .ok others) :
    Token.scan (text ++ ' ' :: (word ++ ' ' :: further)) =
      .ok (tokens ++ Token.ofWord (String.ofList word) :: others) := by
  have blank : Text.isBlank ' ' = true := by decide
  have onward : Token.scan (' ' :: (word ++ ' ' :: further)) =
      .ok (Token.ofWord (String.ofList word) :: others) := by
    rw [Token.scan, if_pos blank, Token.scan_bare_cons bare blank, second]
    rfl
  rw [Token.scan_append_joint (.inl blank) text tokens first, onward]
  rfl

theorem evaluate_of_parse {source : String} (parsed : parse source = .ok one) (c : Context) :
    evaluate source c = .ok (eval c one) := by
  rw [evaluate, parsed]
  rfl

theorem evaluate_or {first second : String} (firstParsed : parse first = .ok one)
    (secondParsed : parse second = .ok other)
    (firstPlain : ¬ "if ".toList <+: Text.trim first.toList)
    (secondPlain : ¬ "if ".toList <+: Text.trim second.toList) (c : Context) :
    ∀ lead ∈ ["", "if "], ∀ word ∈ ["or", "||"],
      evaluate (lead ++ (first ++ " " ++ word ++ " " ++ second)) c =
        .ok (eval c one || eval c other) := by
  obtain ⟨tokens, scanned, formed, plain⟩ := reads_of_parse firstParsed firstPlain
  obtain ⟨others, further, stands, -⟩ := reads_of_parse secondParsed secondPlain
  obtain ⟨both, joined, means⟩ := derives_or formed stands
  intro lead leads word connects
  have text : (first ++ " " ++ word ++ " " ++ second).toList =
      first.toList ++ ' ' :: (word.toList ++ ' ' :: second.toList) := by
    simp
  have reserved : Token.Bare word.toList ∧ Token.ofWord word = .orWord := by
    rcases List.mem_pair.mp connects with rfl | rfl <;> exact ⟨by decide, rfl⟩
  have whole := scan_between reserved.1 scanned further
  rw [String.ofList_toList, reserved.2, ← text] at whole
  have unlike := not_startsWithIf_append plain (trimStart_ne_nil scanned formed)
    (word.toList ++ ' ' :: second.toList)
  rw [← text] at unlike
  rw [evaluate_of_parse (parse_of_reads whole joined unlike lead leads), means]

theorem evaluate_and {first second : String} (firstParsed : parse first = .ok one)
    (secondParsed : parse second = .ok other)
    (firstPlain : ¬ "if ".toList <+: Text.trim first.toList)
    (secondPlain : ¬ "if ".toList <+: Text.trim second.toList) (c : Context) :
    ∀ lead ∈ ["", "if "], ∀ word ∈ ["and", "&&"],
      evaluate (lead ++ ("(" ++ first ++ ") " ++ word ++ " (" ++ second ++ ")")) c =
        .ok (eval c one && eval c other) := by
  obtain ⟨tokens, scanned, formed, -⟩ := reads_of_parse firstParsed firstPlain
  obtain ⟨others, further, stands, -⟩ := reads_of_parse secondParsed secondPlain
  intro lead leads word connects
  have text : ("(" ++ first ++ ") " ++ word ++ " (" ++ second ++ ")").toList =
      '(' :: (first.toList ++ [')']) ++
        ' ' :: (word.toList ++ ' ' :: '(' :: (second.toList ++ [')'])) := by
    simp
  have reserved : Token.Bare word.toList ∧ Token.ofWord word = .andWord := by
    rcases List.mem_pair.mp connects with rfl | rfl <;> exact ⟨by decide, rfl⟩
  have whole := scan_between reserved.1 (scan_group scanned) (scan_group further)
  rw [String.ofList_toList, reserved.2, ← text] at whole
  have unlike := not_startsWithIf_cons (by decide : Text.isBlank '(' = false) (by decide)
    (first.toList ++ [')'] ++ ' ' :: (word.toList ++ ' ' :: '(' :: (second.toList ++ [')'])))
  rw [← List.cons_append, ← text] at unlike
  have joined := derives_and (.group formed) (.group stands)
  rw [evaluate_of_parse (parse_of_reads whole joined unlike lead leads)]
  simp only [eval, evalAll, Bool.and_true]

theorem evaluate_not {source : String} (parsed : parse source = .ok one)
    (plain : ¬ "if ".toList <+: Text.trim source.toList) (c : Context) :
    ∀ lead ∈ ["", "if "],
      evaluate (lead ++ ("not (" ++ source ++ ")")) c = .ok (!eval c one) := by
  obtain ⟨tokens, scanned, formed, -⟩ := reads_of_parse parsed plain
  intro lead leads
  have text : ("not (" ++ source ++ ")").toList =
      "not".toList ++ ' ' :: '(' :: (source.toList ++ [')']) := by
    simp
  have whole : Token.scan ("not (" ++ source ++ ")").toList =
      .ok (.notWord :: .leftParen :: (tokens ++ [.rightParen])) := by
    rw [text, Token.scan_bare_cons (by decide) (by decide : Text.isBlank ' ' = true),
      scan_group scanned]
    rfl
  have unlike := not_startsWithIf_cons (by decide : Text.isBlank 'n' = false) (by decide)
    ("ot".toList ++ ' ' :: '(' :: (source.toList ++ [')']))
  have front : 'n' :: ("ot".toList ++ ' ' :: '(' :: (source.toList ++ [')'])) =
      ("not (" ++ source ++ ")").toList := by
    rw [text]
    rfl
  rw [front] at unlike
  have negated := derives_not (.group formed)
  rw [evaluate_of_parse (parse_of_reads whole negated unlike lead leads), eval]

/-- Conditions joined by `or` as they stand, by `and` in parentheses, or negated in parentheses,
with or without an `if` in front of the whole, are conditions, true as the connective says. -/
theorem evaluate_connectives {first second : String} (firstParsed : parse first = .ok one)
    (secondParsed : parse second = .ok other)
    (firstPlain : ¬ "if ".toList <+: Text.trim first.toList)
    (secondPlain : ¬ "if ".toList <+: Text.trim second.toList) (c : Context) :
    evaluate first c = .ok (eval c one) ∧ evaluate second c = .ok (eval c other) ∧
    ∀ lead ∈ ["", "if "],
      (∀ word ∈ ["or", "||"], evaluate (lead ++ (first ++ " " ++ word ++ " " ++ second)) c =
        .ok (eval c one || eval c other)) ∧
      (∀ word ∈ ["and", "&&"],
        evaluate (lead ++ ("(" ++ first ++ ") " ++ word ++ " (" ++ second ++ ")")) c =
          .ok (eval c one && eval c other)) ∧
      evaluate (lead ++ ("not (" ++ first ++ ")")) c = .ok (!eval c one) := by
  refine ⟨evaluate_of_parse firstParsed c, evaluate_of_parse secondParsed c, ?_⟩
  intro lead leads
  exact ⟨evaluate_or firstParsed secondParsed firstPlain secondPlain c lead leads,
    evaluate_and firstParsed secondParsed firstPlain secondPlain c lead leads,
    evaluate_not firstParsed firstPlain c lead leads⟩

/-- A chain of alternatives, one with a quoted `or`, beside a negation. -/
theorem evaluate_connectives_of_chains :
    let first := " a or x is 'b or c' "
    let second := "not y and\tz"
    let c : Context := ⟨[("a", .bool false), ("x", .string "b or c"), ("y", .bool true)]⟩
    (∃ one other, parse first = .ok one ∧ parse second = .ok other) ∧
      ¬ "if ".toList <+: Text.trim first.toList ∧ ¬ "if ".toList <+: Text.trim second.toList ∧
      evaluate first c = .ok true ∧ evaluate second c = .ok false ∧
      evaluate "if  a or x is 'b or c'  || not y and\tz" c = .ok true := by
  intro first second c
  have one : parse " a or x is 'b or c' " = .ok (.any [.truthy (.word "a"),
      .compare (.word "x") .equal (.quoted "b or c")]) := rfl
  have other : parse "not y and\tz" =
      .ok (.all [.negation (.truthy (.word "y")), .truthy (.word "z")]) := rfl
  have firstPlain : ¬ "if ".toList <+: Text.trim first.toList := by decide
  have secondPlain : ¬ "if ".toList <+: Text.trim second.toList := by decide
  obtain ⟨left, right, joined⟩ := evaluate_connectives one other firstPlain secondPlain c
  have either := (joined "if " (by simp)).1 "||" (by simp)
  have foundA : c.get? "a" = some (.bool false) := Context.find?_of_name (by decide) rfl
  have foundX : c.get? "x" = some (.string "b or c") := Context.find?_of_name (by decide) rfl
  have foundY : c.get? "y" = some (.bool true) := Context.find?_of_name (by decide) rfl
  have holds : eval c (.any [.truthy (.word "a"),
      .compare (.word "x") .equal (.quoted "b or c")]) = true := by
    simp only [eval, evalAny, Operand.truthy, foundA, Comparison.holds, Operand.resolveLeft, foundX]
    rfl
  have fails : eval c (.all [.negation (.truthy (.word "y")), .truthy (.word "z")]) = false := by
    simp only [eval, evalAll, Operand.truthy, foundY]
    rfl
  rw [holds] at left either
  rw [fails] at right
  exact ⟨⟨_, _, one, other⟩, firstPlain, secondPlain, left, right, either⟩

end Expression

end Docscript
