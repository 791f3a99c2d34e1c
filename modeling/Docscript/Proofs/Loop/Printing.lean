import Docscript.Proofs.Loop.Declaration

/- An integer may be written anew when a loop is printed, but it has no dots, however it is written,
so that the operator of a range is found in the same place. -/

set_option autoImplicit false

namespace Docscript

namespace Loop

/-- A text that is one word: it is not empty and has no blanks. -/
structure Plain (text : String) : Prop where
  nonempty : text ≠ ""
  unbroken : ∀ c ∈ text.toList, Text.isBlank c = false

theorem plain_iff {text : String} :
    Plain text ↔ text ≠ "" ∧ (text.toList.all (!Text.isBlank ·)) = true := by
  simp only [List.all_eq_true, Bool.not_eq_true']
  exact ⟨fun plain => ⟨plain.nonempty, plain.unbroken⟩,
    fun ⟨nonempty, unbroken⟩ => ⟨nonempty, unbroken⟩⟩

instance (text : String) : Decidable (Plain text) := decidable_of_iff _ plain_iff.symm

theorem Plain.append {first second : String} (front : Plain first) (rest : Plain second) :
    Plain (first ++ second) := by
  refine ⟨fun none => front.nonempty (String.append_eq_empty_iff.mp none).1, fun c member => ?_⟩
  rw [String.toList_append, List.mem_append] at member
  exact member.elim (front.unbroken c) (rest.unbroken c)

end Loop

namespace Bound

/-- Integers are written in decimal. -/
def text : Bound → String
  | literal n => String.ofList (Text.writeInt n.toInt)
  | path name => name

/-- A bound that is read from its own text, which is one word. -/
structure Written (bound : Bound) : Prop where
  reads : parse? bound.text.toList = some bound
  plain : Loop.Plain bound.text

theorem written_literal (n : Int64) : (literal n).Written := by
  refine ⟨?_, ?_, fun c member => ?_⟩
  · rw [parse?_eq_literal_iff, text, String.toList_ofList, Text.readInt64?_writeInt,
      Text.int64?_eq_some_iff]
  · rw [text, ne_eq, ← String.toList_eq_nil_iff, String.toList_ofList]
    exact Text.writeInt_ne_nil n.toInt
  · rw [text, String.toList_ofList] at member
    exact Text.isBlank_eq_false_of_mem_writeInt member

theorem dotless_literal (n : Int64) : '.' ∉ (literal n).text.toList := by
  rw [text, String.toList_ofList]
  exact fun member => Text.ne_of_mem_writeInt member (by decide) (by decide) rfl

variable {source : String} {bound : Bound}

theorem written_of_parse? (read : parse? source.toList = some bound)
    (unbroken : ∀ c ∈ source.toList, Text.isBlank c = false) : bound.Written := by
  cases bound with
  | literal n => exact written_literal n
  | path name =>
    obtain ⟨same, nonempty, -⟩ := parse?_eq_path_iff.mp read
    obtain rfl := String.toList_inj.mp same
    have filled : source ≠ "" := by simpa using nonempty
    exact ⟨read, filled, unbroken⟩

/-- Dots in what is written for a bound were there in the text that it was read from. -/
theorem infix_of_infix_text (read : parse? source.toList = some bound) {sign : List Char}
    (dotted : '.' ∈ sign) (within : sign <:+: bound.text.toList) : sign <:+: source.toList := by
  cases bound with
  | literal n => exact absurd (within.subset dotted) (dotless_literal n)
  | path name =>
    obtain ⟨same, -⟩ := parse?_eq_path_iff.mp read
    rwa [same]

end Bound

namespace Loop

/-- The words of the key of a loop. -/
def words : Loop → List String
  | times count none => [count.text, "times", "do"]
  | times count (some counter) => [count.text, "times", "with", counter, "do"]
  | range counter start stop inclusive =>
    ["for", counter, "of", start.text ++ operator inclusive ++ stop.text]
  | array item path index => "for" :: item :: "of" :: path :: indexWords index
  | object key path index => "for" :: key :: "in" :: path :: indexWords index

/-- The key of a loop, its words with one blank between them. -/
def print (declared : Loop) : String := " ".intercalate declared.words

structure Named (name : String) : Prop where
  reads : name? name.toList = some name
  plain : Plain name

/-- The loops that are read again from what is written for them. -/
inductive Readable : Loop → Prop where
  | times {count : Bound} (counted : count.Written) : Readable (.times count none)
  | timesWith {count : Bound} {counter : String} (counted : count.Written)
      (named : Named counter) : Readable (.times count (some counter))
  | range {counter : String} {start stop : Bound} {inclusive : Bool} (named : Named counter)
      (first : start.Written) (last : stop.Written)
      (foremost : Foremost inclusive start.text.toList stop.text.toList) :
      Readable (.range counter start stop inclusive)
  | array {item path : String} {index : Option String} (named : Named item)
      (indexed : ∀ name ∈ index, Named name) (kept : Plain path)
      (undotted : index = none → ¬ (operator true).toList <:+: path.toList) :
      Readable (.array item path index)
  | object {key path : String} {index : Option String} (named : Named key)
      (indexed : ∀ name ∈ index, Named name) (kept : Plain path)
      (undotted : index = none → ¬ (operator true).toList <:+: path.toList) :
      Readable (.object key path index)

variable {declared : Loop}

theorem declares_words (readable : Readable declared) : Declares declared.words declared := by
  cases readable with
  | times counted => exact .times counted.reads
  | timesWith counted named => exact .timesWith counted.reads named.reads
  | range named first last foremost =>
    exact .range rfl (.inr rfl) named.reads first.reads last.reads foremost
  | array named indexed kept undotted =>
    exact .array rfl named.reads (fun name member => (indexed name member).reads) undotted
  | object named indexed kept undotted =>
    exact .object rfl named.reads (fun name member => (indexed name member).reads) undotted

theorem plain_operator (inclusive : Bool) : Plain (operator inclusive) := by
  cases inclusive <;> decide

theorem plain_indexWords {index : Option String} (indexed : ∀ name ∈ index, Named name) :
    ∀ word ∈ indexWords index, Plain word := by
  cases index with
  | none => exact nofun
  | some name =>
    have plain := (indexed name rfl).plain
    simp only [indexWords, List.forall_mem_cons, List.not_mem_nil, false_implies, implies_true,
      and_true]
    exact ⟨by decide, plain⟩

theorem plain_words (readable : Readable declared) : ∀ word ∈ declared.words, Plain word := by
  have marks : Plain "times" ∧ Plain "with" ∧ Plain "do" ∧ Plain "for" ∧ Plain "of" ∧
      Plain "in" := by decide
  obtain ⟨times, with_, do_, for_, of_, in_⟩ := marks
  cases readable with
  | times counted => simp [words, counted.plain, times, do_]
  | timesWith counted named => simp [words, counted.plain, named.plain, times, with_, do_]
  | @range counter start stop inclusive named first last foremost =>
    have span := (first.plain.append (plain_operator inclusive)).append last.plain
    simp [words, named.plain, for_, of_, span]
  | array named indexed kept undotted =>
    simpa [words, named.plain, kept, for_, of_] using plain_indexWords indexed
  | object named indexed kept undotted =>
    simpa [words, named.plain, kept, for_, in_] using plain_indexWords indexed

theorem parse?_print (readable : Readable declared) : parse? declared.print = some declared := by
  have text : declared.print.toList = [' '].intercalate (declared.words.map String.toList) := by
    rw [print, String.toList_intercalate]
    rfl
  have plain : ∀ word ∈ declared.words.map String.toList,
      word ≠ [] ∧ ∀ c ∈ word, Text.isBlank c = false := by
    intro word member
    obtain ⟨source, inside, rfl⟩ := List.mem_map.mp member
    have one := plain_words readable source inside
    exact ⟨by simpa using one.nonempty, one.unbroken⟩
  rw [parse?_eq_some_iff, text, Text.words_intercalate plain, List.map_map]
  simpa [Function.comp_def] using declares_words readable

theorem readable_of_declares {row : List String} (declares : Declares row declared)
    (plain : ∀ word ∈ row, Plain word) : Readable declared := by
  have position {index : Option String} (read : ∀ name ∈ index, name? name.toList = some name)
      (within : ∀ word ∈ indexWords index, Plain word) : ∀ name ∈ index, Named name :=
    fun name member => ⟨read name member, within name (mem_indexWords member)⟩
  cases declares with
  | times counted =>
    exact .times (Bound.written_of_parse? counted (plain _ (by simp)).unbroken)
  | timesWith counted named =>
    exact .timesWith (Bound.written_of_parse? counted (plain _ (by simp)).unbroken)
      ⟨named, plain _ (by simp)⟩
  | @range lead counter link before after start stop inclusive leads links named first last
      foremost =>
    have span : Plain (before ++ operator inclusive ++ after) := plain _ (by simp)
    have front : start.Written := Bound.written_of_parse? first fun c member =>
      span.unbroken c (by simp [member])
    have back : stop.Written := Bound.written_of_parse? last fun c member =>
      span.unbroken c (by simp [member])
    have dotted (inclusive : Bool) : '.' ∈ (operator inclusive).toList := by
      cases inclusive <;> decide
    refine .range ⟨named, plain _ (by simp)⟩ front back ⟨fun within => ?_, fun closed within => ?_⟩
    · exact foremost.first (Bound.infix_of_infix_text first (dotted inclusive) within)
    · exact foremost.longer closed (Bound.infix_of_infix_text last (dotted false) within)
  | array leads named read undotted =>
    rw [List.forall_mem_cons, List.forall_mem_cons, List.forall_mem_cons,
      List.forall_mem_cons] at plain
    obtain ⟨-, item, -, path, rest⟩ := plain
    exact .array ⟨named, item⟩ (position read rest) path undotted
  | object leads named read undotted =>
    rw [List.forall_mem_cons, List.forall_mem_cons, List.forall_mem_cons,
      List.forall_mem_cons] at plain
    obtain ⟨-, key, -, path, rest⟩ := plain
    exact .object ⟨named, key⟩ (position read rest) path undotted

theorem readable_of_parse? {key : String} (read : parse? key = some declared) :
    Readable declared := by
  refine readable_of_declares (parse?_eq_some_iff.mp read) fun word member => ?_
  obtain ⟨part, inside, rfl⟩ := List.mem_map.mp member
  refine ⟨by simpa using Text.ne_nil_of_mem_words inside, ?_⟩
  rw [String.toList_ofList]
  exact Text.isBlank_of_mem_words inside

/-- The bounds of a loop that is counted. -/
def bounds : Loop → List Bound
  | times count _ => [count]
  | range _ start stop _ => [start, stop]
  | array _ _ _ => []
  | object _ _ _ => []

/-- The path of the collection that a loop goes through. -/
def iterable? : Loop → Option String
  | times _ _ => none
  | range _ _ _ _ => none
  | array _ path _ => some path
  | object _ path _ => some path

/-- The path of a bound that nothing else is written like. -/
structure BoundPath (path : String) : Prop where
  plain : Plain path
  starts : path.toList.head? ≠ some '.'
  ends : path.toList.getLast? ≠ some '.'
  undotted : ¬ (operator true).toList <:+: path.toList
  unread : Text.readInt64? path.toList = none

/-- A loop whose names and paths are words of their own. -/
structure Writable (declared : Loop) : Prop where
  names : ∀ name ∈ declared.boundNames, Named name
  bounds : ∀ path : String, .path path ∈ declared.bounds → BoundPath path
  iterable : ∀ path ∈ declared.iterable?, Plain path ∧ ¬ (operator true).toList <:+: path.toList

theorem written_of_boundPath {bound : Bound}
    (writable : ∀ path : String, .path path = bound → BoundPath path) :
    bound.Written ∧ ¬ (operator true).toList <:+: bound.text.toList := by
  cases bound with
  | literal n =>
    refine ⟨Bound.written_literal n, fun within => Bound.dotless_literal n ?_⟩
    exact within.subset (by decide)
  | path name =>
    obtain ⟨plain, starts, ends, undotted, unread⟩ := writable name rfl
    have filled : name.toList ≠ [] := by simpa using plain.nonempty
    have reads := Bound.parse?_eq_path_iff.mpr ⟨rfl, filled, starts, ends, unread⟩
    exact ⟨⟨reads, plain⟩, undotted⟩

theorem readable_of_writable (writable : Writable declared) : Readable declared := by
  obtain ⟨names, bounds, iterable⟩ := writable
  have written {bound : Bound} (member : bound ∈ declared.bounds) :
      bound.Written ∧ ¬ (operator true).toList <:+: bound.text.toList :=
    written_of_boundPath fun path same => bounds path (same ▸ member)
  cases declared with
  | times count counter =>
    have counted := (written (List.mem_singleton_self count)).1
    cases counter with
    | none => exact .times counted
    | some counter => exact .timesWith counted (names counter (by simp [boundNames]))
  | range counter start stop inclusive =>
    obtain ⟨first, front⟩ := written (List.mem_cons_self : start ∈ [start, stop])
    obtain ⟨last, behind⟩ := written (by simp : stop ∈ [start, stop])
    exact .range (names counter (by simp [boundNames])) first last
      (foremost_of_undoubled front behind)
  | array item path index =>
    obtain ⟨kept, undotted⟩ := iterable path rfl
    rw [boundNames, List.forall_mem_cons] at names
    refine .array names.1 (fun name member => ?_) kept fun _ => undotted
    exact names.2 name (Option.mem_toList.mpr member)
  | object key path index =>
    obtain ⟨kept, undotted⟩ := iterable path rfl
    rw [boundNames, List.forall_mem_cons] at names
    refine .object names.1 (fun name member => ?_) kept fun _ => undotted
    exact names.2 name (Option.mem_toList.mpr member)

/-- What a key declares is declared by its print as well, and so is every loop whose names and paths
are words of their own. -/
theorem loop_keys_round_trip :
    (∀ (key : String) (declared : Loop), parse? key = some declared →
      parse? declared.print = some declared) ∧
    ∀ declared : Loop, Writable declared → parse? declared.print = some declared :=
  ⟨fun _ _ read => parse?_print (readable_of_parse? read),
    fun _ writable => parse?_print (readable_of_writable writable)⟩

/-- A range whose first integer is written anew, and a loop that comes from no key. -/
theorem loop_keys_round_trip_of_signed :
    let counted : Loop := .range "v" (.literal 1) (.path "page.last") true
    let listed : Loop := .array "x" "a.b" (some "i")
    parse? "each v  in +01..page.last" = some counted ∧ counted.print = "for v of 1..page.last" ∧
      parse? counted.print = some counted ∧ Writable listed ∧
      listed.print = "for x of a.b with i" ∧ parse? listed.print = some listed := by
  intro counted listed
  obtain ⟨declared, writable⟩ := loop_keys_round_trip
  have read : parse? "each v  in +01..page.last" = some counted := rfl
  have words : Writable listed := by
    refine ⟨?_, nofun, ?_⟩
    · simp only [listed, boundNames, Option.toList_some, List.forall_mem_cons, List.not_mem_nil,
        false_implies, implies_true, and_true]
      exact ⟨⟨rfl, by decide⟩, rfl, by decide⟩
    · rintro _ ⟨⟩
      exact ⟨by decide, by rw [← Text.hasPart_iff]; decide⟩
  exact ⟨read, rfl, declared _ _ read, words, rfl, writable _ words⟩

end Loop

end Docscript
