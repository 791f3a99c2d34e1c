import Docscript.Error
import Docscript.Key
import Docscript.Context

/- Scopes are taken one at a time and none is made before it is asked for. -/

set_option autoImplicit false

namespace Docscript

/-- What a loop has still to go through: the integers from `next` up to and without `stop`, or the
rest of a list, whose first item has the given position. -/
inductive Cursor where
  | counter (name : Option String) (next stop : Int64)
  | items (name : String) (index : Option String) (position : Nat) (rest : List Value)

structure Scopes where
  base : Context
  cursor : Cursor

namespace Scopes

/-- The next scope and the scopes after it. -/
def next? (scopes : Scopes) : Option (Context × Scopes) :=
  match scopes.cursor with
  | .counter name next stop =>
    if next < stop then
      let bound : Entries Value := match name with
        | some name => [(name, .int next.toInt)]
        | none => []
      some (scopes.base.extend bound, ⟨scopes.base, .counter name (next + 1) stop⟩)
    else none
  | .items _ _ _ [] => none
  | .items name index position (item :: rest) =>
    let bound : Entries Value := match index with
      | some index => [(name, item), (index, .int position)]
      | none => [(name, item)]
    some (scopes.base.extend bound, ⟨scopes.base, .items name index (position + 1) rest⟩)

/-- How many scopes there are still. -/
def remaining (scopes : Scopes) : Nat :=
  match scopes.cursor with
  | .counter _ next stop => (stop.toInt - next.toInt).toNat
  | .items _ _ _ rest => rest.length

/-- The announced number of scopes, which is at most the largest integer of 64 bits. -/
def sizeHint (scopes : Scopes) : Nat :=
  match scopes.cursor with
  | .counter _ next stop => min (stop.toInt - next.toInt).toNat Int64.maxValue.toInt.toNat
  | .items _ _ _ rest => rest.length

/-- Up to `limit` scopes, after those that are `done`, the last one first; and what is left. -/
def takeOnto (done : List Context) : Nat → Scopes → List Context × Scopes
  | 0, scopes => (done.reverse, scopes)
  | limit + 1, scopes =>
    match scopes.next? with
    | some (scope, rest) => takeOnto (scope :: done) limit rest
    | none => (done.reverse, scopes)

/-- The first `limit` scopes and what is left of the loop after them. -/
def take (limit : Nat) (scopes : Scopes) : List Context × Scopes := takeOnto [] limit scopes

/-- The results of all scopes in order, up to the first error. A scope may have no result. -/
def collectOnto {α : Type} (result : Context → Except Error (Option α)) (done : List α) :
    Nat → Scopes → Except Error (List α)
  | 0, _ => .ok done.reverse
  | rounds + 1, scopes =>
    match scopes.next? with
    | none => .ok done.reverse
    | some (scope, rest) =>
      match result scope with
      | .error error => .error error
      | .ok none => collectOnto result done rounds rest
      | .ok (some value) => collectOnto result (value :: done) rounds rest

def collect {α : Type} (result : Context → Except Error (Option α)) (scopes : Scopes) :
    Except Error (List α) :=
  collectOnto result [] scopes.remaining scopes

end Scopes

namespace Bound

def resolve? (c : Context) : Bound → Option Int64
  | literal n => some n
  | path text => (c.get? text).bind Value.toInt64?

end Bound

namespace Loop

/-- The end of a loop that includes the given integer; the largest integer stays. -/
def following (n : Int64) : Int64 := if n = Int64.maxValue then n else n + 1

/-- The scopes of a loop in a context. -/
def bind (c : Context) : Loop → Except Error Scopes
  | times count counter =>
    match count.resolve? c with
    | none => .error .timesBound
    | some n => .ok ⟨c, .counter counter 1 (following n)⟩
  | range counter start stop inclusive =>
    match start.resolve? c, stop.resolve? c with
    | some first, some last =>
      .ok ⟨c, .counter (some counter) first (if inclusive then following last else last)⟩
    | _, _ => .error .rangeBound
  | array item path index =>
    match c.get? path with
    | none => .error (.iterableMissing path)
    | some (.array items) => .ok ⟨c, .items item index 0 items⟩
    | some _ => .error (.notArray path)
  | object key path index =>
    match c.get? path with
    | none => .error (.iterableMissing path)
    | some (.object entries) =>
      .ok ⟨c, .items key index 0 ((Entries.keys entries).map .string)⟩
    | some _ => .error (.notObject path)

end Loop

end Docscript
