import Docscript.Key
import Docscript.Proofs.Text.Numeral
import Docscript.Proofs.Text.Occurrence

/- A range is the one form whose words are looked into: its operator is found by its dots, `...`
before `..`, so that the grammar says of the two sides what keeps another operator from being found
first. -/

set_option autoImplicit false

namespace Docscript

namespace Bound

variable {text : List Char} {bound : Bound}

theorem dotless_ends (read : parse? text = some bound) :
    text ≠ [] ∧ text.head? ≠ some '.' ∧ text.getLast? ≠ some '.' := by
  rw [parse?] at read
  split at read
  · cases read
  · next valid => simpa [not_or] using valid

theorem parse?_of_dotless_ends (nonempty : text ≠ []) (starts : text.head? ≠ some '.')
    (ends : text.getLast? ≠ some '.') :
    parse? text = match Text.readInt64? text with
      | some n => some (.literal n)
      | none => some (.path (String.ofList text)) := by
  have valid : ¬ (text.isEmpty ∨ text.head? = some '.' ∨ text.getLast? = some '.') := by
    simp [nonempty, starts, ends]
  exact if_neg valid

/-- The text of an integer has no dots at its ends, since it has none at all. -/
theorem parse?_eq_literal_iff {n : Int64} :
    parse? text = some (.literal n) ↔ Text.readInt64? text = some n := by
  constructor
  · intro read
    obtain ⟨nonempty, starts, ends⟩ := dotless_ends read
    rw [parse?_of_dotless_ends nonempty starts ends] at read
    split at read
    · next number => rw [number, (Bound.literal.inj (Option.some.inj read))]
    · cases read
  · intro number
    obtain ⟨nonempty, dotless⟩ := Text.dotless_of_readInt64? number
    have starts : text.head? ≠ some '.' := fun first => dotless (List.mem_of_head? first)
    have ends : text.getLast? ≠ some '.' := fun last => dotless (List.mem_of_getLast? last)
    rw [parse?_of_dotless_ends nonempty starts ends, number]

theorem parse?_eq_path_iff {path : String} :
    parse? text = some (.path path) ↔
      text = path.toList ∧ text ≠ [] ∧ text.head? ≠ some '.' ∧ text.getLast? ≠ some '.' ∧
        Text.readInt64? text = none := by
  constructor
  · intro read
    obtain ⟨nonempty, starts, ends⟩ := dotless_ends read
    rw [parse?_of_dotless_ends nonempty starts ends] at read
    split at read
    · cases read
    · next unread =>
      cases read
      exact ⟨String.toList_ofList.symm, nonempty, starts, ends, unread⟩
  · rintro ⟨same, nonempty, starts, ends, unread⟩
    rw [parse?_of_dotless_ends nonempty starts ends, unread, same, String.ofList_toList]

end Bound

namespace Loop

theorem name?_eq_some {text : List Char} {name : String} (read : name? text = some name) :
    text = name.toList ∧ text ≠ [] ∧ '.' ∉ text := by
  rw [name?] at read
  split at read
  · cases read
  · next valid =>
    cases read
    simp only [not_or, List.isEmpty_iff] at valid
    refine ⟨by rw [String.toList_ofList], valid.1, fun dotted => ?_⟩
    exact valid.2.1 (List.any_eq_true.mpr ⟨'.', dotted, by simp⟩)

theorem eq_of_name?_toList {word name : String} (read : name? word.toList = some name) :
    word = name :=
  String.toList_inj.mp (name?_eq_some read).1

/-- The sign between the two ends of a range. -/
def operator (inclusive : Bool) : String := if inclusive then ".." else "..."

/-- What keeps another operator from being found first: in front of an operator there is none of its
kind, and after `..` there is no `...`, which is looked for first. -/
structure Foremost (inclusive : Bool) (before after : List Char) : Prop where
  first : ¬ (operator inclusive).toList <:+: before
  longer : inclusive = true → ¬ (operator false).toList <:+: after

section Ranges

variable {before after span : List Char} {inclusive : Bool}

theorem operator_eq_replicate (inclusive : Bool) :
    (operator inclusive).toList = List.replicate (if inclusive then 2 else 3) '.' := by
  cases inclusive <;> rfl

theorem doubled_infix_operator (inclusive : Bool) :
    (operator true).toList <:+: (operator inclusive).toList := by
  cases inclusive
  · exact ⟨[], ['.'], rfl⟩
  · exact List.infix_refl _

theorem foremost_of_undoubled (front : ¬ (operator true).toList <:+: before)
    (behind : ¬ (operator true).toList <:+: after) : Foremost inclusive before after :=
  ⟨fun within => front ((doubled_infix_operator inclusive).trans within),
    fun _ within => behind ((doubled_infix_operator false).trans within)⟩

theorem foremost_of_splitRange? (found : splitRange? span = some (before, after, inclusive)) :
    span = before ++ (operator inclusive).toList ++ after ∧ Foremost inclusive before after := by
  rw [splitRange?] at found
  split at found
  · next start stop split =>
    cases found
    obtain ⟨whole, -⟩ := Text.of_splitOnce?_eq_some split
    exact ⟨whole, Text.not_infix_of_splitOnce? split (by decide), nofun⟩
  · next absent =>
    obtain ⟨sides, split, same⟩ := Option.map_eq_some_iff.mp found
    cases same
    obtain ⟨whole, -⟩ := Text.of_splitOnce?_eq_some split
    refine ⟨whole, Text.not_infix_of_splitOnce? split (by decide), fun _ within => ?_⟩
    refine Text.splitOnce?_eq_none_iff.mp absent ?_
    rw [whole]
    exact within.trans (List.suffix_append _ _).isInfix

theorem splitRange?_of_foremost (ends : before.getLast? ≠ some '.')
    (starts : after.head? ≠ some '.') (foremost : Foremost inclusive before after) :
    splitRange? (before ++ (operator inclusive).toList ++ after) =
      some (before, after, inclusive) := by
  have split : Text.splitOnce? (operator inclusive).toList
      (before ++ (operator inclusive).toList ++ after) = some (before, after) := by
    refine Text.splitOnce?_eq_some_iff.mpr ⟨rfl, fun front rest occurs => ?_⟩
    have first := foremost.first
    rw [operator_eq_replicate] at first occurs
    exact Text.length_le_of_replicate first ends occurs
  have three : "...".toList = List.replicate 3 '.' := rfl
  cases inclusive with
  | false =>
    have found : Text.splitOnce? "...".toList (before ++ (operator false).toList ++ after) =
        some (before, after) := split
    rw [splitRange?, found]
  | true =>
    have absent : Text.splitOnce? "...".toList (before ++ (operator true).toList ++ after) =
        none := by
      rw [Text.splitOnce?_eq_none_iff, three, Text.replicate_infix_append_iff (.inr starts),
        Text.replicate_infix_append_iff (.inl ends), ← three, or_assoc]
      rintro (inFront | within | behind)
      · exact foremost.first ((doubled_infix_operator false).trans inFront)
      · exact absurd within.length_le (by decide)
      · exact foremost.longer rfl behind
    have found : Text.splitOnce? "..".toList (before ++ (operator true).toList ++ after) =
        some (before, after) := split
    rw [splitRange?, absent, found]
    rfl

end Ranges

/-- The words that name the position of an item. -/
def indexWords : Option String → List String
  | none => []
  | some index => ["with", index]

theorem mem_indexWords {index : Option String} {name : String} (member : name ∈ index) :
    name ∈ indexWords index := by
  simp [Option.mem_def.mp member, indexWords]

/-- The rows of words that declare a loop. Without words for the position of an item a path with two
dots in it would be a range. -/
inductive Declares : List String → Loop → Prop where
  | times {text : String} {count : Bound} (counted : Bound.parse? text.toList = some count) :
      Declares [text, "times", "do"] (.times count none)
  | timesWith {text counter : String} {count : Bound}
      (counted : Bound.parse? text.toList = some count)
      (named : name? counter.toList = some counter) :
      Declares [text, "times", "with", counter, "do"] (.times count (some counter))
  | range {lead counter link before after : String} {start stop : Bound} {inclusive : Bool}
      (leads : isLead lead = true) (links : link = "in" ∨ link = "of")
      (named : name? counter.toList = some counter)
      (first : Bound.parse? before.toList = some start)
      (last : Bound.parse? after.toList = some stop)
      (foremost : Foremost inclusive before.toList after.toList) :
      Declares [lead, counter, link, before ++ operator inclusive ++ after]
        (.range counter start stop inclusive)
  | array {lead item path : String} {index : Option String} (leads : isLead lead = true)
      (named : name? item.toList = some item)
      (indexed : ∀ name ∈ index, name? name.toList = some name)
      (plain : index = none → ¬ (operator true).toList <:+: path.toList) :
      Declares (lead :: item :: "of" :: path :: indexWords index) (.array item path index)
  | object {lead key path : String} {index : Option String} (leads : isLead lead = true)
      (named : name? key.toList = some key)
      (indexed : ∀ name ∈ index, name? name.toList = some name)
      (plain : index = none → ¬ (operator true).toList <:+: path.toList) :
      Declares (lead :: key :: "in" :: path :: indexWords index) (.object key path index)

section Readers

variable {lead name link path : String} {index : Option String} {declared : Loop}

theorem declares_of_range? (leads : isLead lead = true) (links : link = "in" ∨ link = "of")
    (read : range? name.toList path.toList = some declared) :
    Declares [lead, name, link, path] declared := by
  simp only [range?, Option.bind_eq_bind, Option.bind_eq_some_iff] at read
  obtain ⟨⟨before, after, inclusive⟩, split, counter, named, start, first, stop, last, same⟩ := read
  cases same
  obtain rfl := eq_of_name?_toList named
  obtain ⟨whole, foremost⟩ := foremost_of_splitRange? split
  have text : path = String.ofList before ++ operator inclusive ++ String.ofList after := by
    rw [← String.toList_inj]
    simpa using whole
  rw [text]
  exact .range leads links named (by rwa [String.toList_ofList]) (by rwa [String.toList_ofList])
    (by rwa [String.toList_ofList, String.toList_ofList])

/-- The word in the middle tells whether items or keys are gone through. -/
theorem declares_of_linked (leads : isLead lead = true) (named : name? name.toList = some name)
    (indexed : ∀ second ∈ index, name? second.toList = some second)
    (plain : index = none → link = "in" ∨ link = "of" → ¬ (operator true).toList <:+: path.toList)
    (chosen : (if link = "of" then some (array name path index)
      else if link = "in" then some (object name path index) else none) = some declared) :
    Declares (lead :: name :: link :: path :: indexWords index) declared := by
  split at chosen
  · next of_ =>
    cases chosen
    subst of_
    exact .array leads named indexed fun none => plain none (.inr rfl)
  · split at chosen
    · next in_ =>
      cases chosen
      subst in_
      exact .object leads named indexed fun none => plain none (.inl rfl)
    · cases chosen

theorem declares_of_collection? (leads : isLead lead = true)
    (plain : index = none → link = "in" ∨ link = "of" → ¬ (operator true).toList <:+: path.toList)
    (read : collection? name.toList link path.toList (index.map String.toList) = some declared) :
    Declares (lead :: name :: link :: path :: indexWords index) declared := by
  rw [collection?, Option.bind_eq_bind, Option.bind_eq_some_iff] at read
  obtain ⟨item, named, read⟩ := read
  obtain rfl := eq_of_name?_toList named
  rw [String.ofList_toList] at read
  cases index with
  | none => exact declares_of_linked leads named nofun plain read
  | some second =>
    obtain ⟨_, indexed, chosen⟩ := Option.bind_eq_some_iff.mp read
    obtain ⟨position, readSecond, rfl⟩ := Option.map_eq_some_iff.mp indexed
    obtain rfl := eq_of_name?_toList readSecond
    have positions : ∀ third ∈ some second, name? third.toList = some third :=
      fun _ member => Option.mem_some.mp member ▸ readSecond
    exact declares_of_linked leads named positions plain chosen

theorem collection?_eq_some (named : name? name.toList = some name)
    (indexed : ∀ second ∈ index, name? second.toList = some second) :
    collection? name.toList "of" path.toList (index.map String.toList) =
        some (.array name path index) ∧
      collection? name.toList "in" path.toList (index.map String.toList) =
        some (.object name path index) := by
  cases index with
  | none => simp [collection?, named]
  | some second => simp [collection?, named, indexed second rfl]

theorem ofWords?_collection (leads : isLead lead = true)
    (plain : index = none → ¬ (operator true).toList <:+: path.toList) :
    ofWords? (lead :: name :: link :: path :: indexWords index) =
      collection? name.toList link path.toList (index.map String.toList) := by
  cases index with
  | none =>
    have undotted : ¬ Text.hasPart "..".toList path.toList = true := by
      rw [Text.hasPart_iff]
      exact plain rfl
    rw [indexWords, ofWords?, leads, if_neg (by decide), if_neg fun dotted => undotted dotted.2]
    rfl
  | some second => simp [ofWords?, indexWords, leads]

end Readers

theorem ofWords?_eq_some_iff {words : List String} {declared : Loop} :
    ofWords? words = some declared ↔ Declares words declared := by
  constructor
  · intro read
    unfold ofWords? at read
    split at read
    · simp only [Option.bind_eq_bind, Option.bind_eq_some_iff] at read
      obtain ⟨_, counted, same⟩ := read
      cases same
      exact .times counted
    · simp only [Option.bind_eq_bind, Option.bind_eq_some_iff] at read
      obtain ⟨_, counted, counter, named, same⟩ := read
      cases same
      obtain rfl := eq_of_name?_toList named
      exact .timesWith counted named
    · next lead name link path =>
      split at read
      · cases read
      · next leads =>
        rw [Bool.not_eq_true', Bool.not_eq_false] at leads
        split at read
        · next dotted => exact declares_of_range? leads dotted.1 read
        · next plain =>
          have undotted : (none : Option String) = none → link = "in" ∨ link = "of" →
              ¬ (operator true).toList <:+: path.toList :=
            fun _ links within => plain ⟨links, Text.hasPart_iff.mpr within⟩
          exact declares_of_collection? leads undotted read
    · next lead name link path index =>
      split at read
      · cases read
      · next leads =>
        rw [Bool.not_eq_true', Bool.not_eq_false] at leads
        have undotted : some index = none → link = "in" ∨ link = "of" →
            ¬ (operator true).toList <:+: path.toList := nofun
        exact declares_of_collection? leads undotted read
    · cases read
  · intro declares
    cases declares with
    | times counted => simp [ofWords?, counted]
    | timesWith counted named => simp [ofWords?, counted, named]
    | @range lead counter link before after start stop inclusive leads links named first last
        foremost =>
      obtain ⟨-, -, ends⟩ := Bound.dotless_ends first
      obtain ⟨-, starts, -⟩ := Bound.dotless_ends last
      have split := splitRange?_of_foremost ends starts foremost
      have dotted : Text.hasPart "..".toList (before ++ operator inclusive ++ after).toList =
          true := by
        rw [Text.hasPart_iff, String.toList_append, String.toList_append]
        exact (doubled_infix_operator inclusive).trans (List.infix_append _ _ _)
      have read : range? counter.toList (before ++ operator inclusive ++ after).toList =
          some (range counter start stop inclusive) := by
        rw [String.toList_append, String.toList_append, range?, split]
        simp [named, first, last]
      rw [ofWords?, leads, if_neg (by decide), if_pos ⟨links, dotted⟩, read]
    | array leads named indexed plain =>
      rw [ofWords?_collection leads plain, (collection?_eq_some named indexed).1]
    | object leads named indexed plain =>
      rw [ofWords?_collection leads plain, (collection?_eq_some named indexed).2]

theorem parse?_eq_some_iff {key : String} {declared : Loop} :
    parse? key = some declared ↔
      Declares ((Text.words key.toList).map String.ofList) declared :=
  ofWords?_eq_some_iff

end Loop

end Docscript
