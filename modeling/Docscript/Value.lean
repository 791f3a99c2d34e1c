import Docscript.Entries
import Docscript.Number

set_option autoImplicit false

namespace Docscript

/-- A document value. Objects keep their entries in the order in which they were put. -/
inductive Value where
  | null
  | bool (value : Bool)
  | number (value : Number)
  | string (value : String)
  | array (items : List Value)
  | object (entries : List (String × Value))

namespace Value

instance : Inhabited Value := ⟨.null⟩

/-- Induction from parts to wholes: an array has a property if its items have it, an object if the
values of its entries have it. -/
@[elab_as_elim] theorem induction_parts {motive : Value → Prop} (null : motive .null)
    (bool : ∀ b, motive (.bool b)) (number : ∀ n, motive (.number n))
    (string : ∀ s, motive (.string s))
    (array : ∀ items : List Value, (∀ item ∈ items, motive item) → motive (.array items))
    (object : ∀ entries : Entries Value, (∀ entry ∈ entries, motive entry.2) →
      motive (.object entries))
    (value : Value) : motive value :=
  @Value.rec motive (fun items => ∀ item ∈ items, motive item)
    (fun entries => ∀ entry ∈ entries, motive entry.2) (fun entry => motive entry.2)
    null bool number string array object
    (fun _ member => absurd member List.not_mem_nil)
    (fun _ _ first rest => List.forall_mem_cons.mpr ⟨first, rest⟩)
    (fun _ member => absurd member List.not_mem_nil)
    (fun _ _ first rest => List.forall_mem_cons.mpr ⟨first, rest⟩)
    (fun _ _ part => part) value

def int (n : Int) : Value := .number (.int n)

/-- Null, false, zero and the empty text are false; all else is true, empty arrays and objects
included. -/
def truthy : Value → Bool
  | null => false
  | bool b => b
  | number n => n.isNonzero
  | string s => s != ""
  | array _ => true
  | object _ => true

mutual

/-- Equality without conversion: both sides have the same type, numbers are compared by value, and
objects without regard to the order of their keys. -/
def strictEq : Value → Value → Bool
  | null, null => true
  | bool a, bool b => a == b
  | number a, number b => a.same b
  | string a, string b => a == b
  | array a, array b => strictEqItems a b
  | object a, object b => a.length == b.length && strictEqEntries a b
  | _, _ => false

def strictEqItems : List Value → List Value → Bool
  | [], [] => true
  | a :: as, b :: bs => strictEq a b && strictEqItems as bs
  | _, _ => false

/-- Whether each entry has an equal one with its key on the other side. -/
def strictEqEntries : List (String × Value) → List (String × Value) → Bool
  | [], _ => true
  | (key, a) :: rest, other =>
    (match Entries.get? other key with
      | some b => strictEq a b
      | none => false) && strictEqEntries rest other

end

mutual

/-- No object at any depth has two entries with one key. -/
def UniqueKeys : Value → Prop
  | array items => UniqueKeysItems items
  | object entries => (Entries.keys entries).Nodup ∧ UniqueKeysEntries entries
  | _ => True

def UniqueKeysItems : List Value → Prop
  | [] => True
  | item :: rest => UniqueKeys item ∧ UniqueKeysItems rest

def UniqueKeysEntries : List (String × Value) → Prop
  | [] => True
  | (_, value) :: rest => UniqueKeys value ∧ UniqueKeysEntries rest

end

/-- The number that a value stands for in an ordering: its own, or that of a text that is wholly
numeric. -/
def toDouble? : Value → Option Binary64
  | number n => n.toDouble?
  | string s => (Number.read? s.toList).bind Number.toDouble?
  | _ => none

/-- The value as a loop bound. Texts never are one. -/
def toInt64? : Value → Option Int64
  | number n => n.toInt64?
  | _ => none

/-- A whole text as a scalar: a boolean or number if it reads as one between its blanks, otherwise
the text itself. -/
def ofText (text : List Char) : Value :=
  match String.ofList (Text.trim text) with
  | "true" => bool true
  | "false" => bool false
  | _ => match Number.read? text with
    | some n => number n
    | none => string (String.ofList text)

end Value

end Docscript
