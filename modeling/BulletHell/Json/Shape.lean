import BulletHell.Json.Basic
import BulletHell.Number.Decimal

/-!
# Reading values out of JSON

A `Shape α` says which JSON values stand for an `α`. Shapes of records are put together from
the shapes of their fields: a field may be required or have a default, a field that is not
asked for is ignored whatever it holds, and a field that is asked for may not occur twice.

## Main definitions

* `Shape`, `Shape.listOf`, `Shape.tuple` — values and sequences.
* `Shape.word` — one of a set of named constants.
* `RecordReader`, `RecordReader.required`, `RecordReader.optional` — the fields of a record.
* `Shape.record`, `Shape.tagged` — records, and records of several forms.

## Implementation notes

A record may be written as the sequence of its values. A reader therefore asks for the fields
in the order in which they are declared, and takes either the field of the right name or the
next value.
-/

namespace BulletHell

/-- The JSON values that stand for an `α`, and for which one. -/
abbrev Shape (α : Type) := Json → Option α

namespace Shape

def bool : Shape Bool
  | .bool b => some b
  | _ => none

def text : Shape String
  | .text s => some s
  | _ => none

/-- An integer from a range. A numeral with a fraction or an exponent is none. -/
def integer (lo hi : Int) : Shape Int
  | .integer n => if lo ≤ n && n ≤ hi then some n else none
  | _ => none

/-- A natural number below a bound. -/
def natural (bound : Nat) : Shape Nat
  | .integer n => if 0 ≤ n && n < bound then some n.toNat else none
  | _ => none

/-- A natural number of 32 bits. -/
def natural32 : Shape Nat :=
  natural 0x100000000

/-- A natural number of 64 bits. -/
def natural64 : Shape Nat :=
  natural 0x10000000000000000

/-- An integer of 32 bits. -/
def integer32 : Shape Int :=
  integer (-0x80000000) 0x7fffffff

/-- An integer of 64 bits. -/
def integer64 : Shape Int :=
  integer (-0x8000000000000000) 0x7fffffffffffffff

/-- A double. -/
def double : Shape Float
  | .integer n => some (doubleOfInt n)
  | .double x => some x
  | _ => none

/-- A single. An integer is rounded once; any other number is rounded to a double first. -/
def single : Shape Float32
  | .integer n => some (singleOfInt n)
  | .double x => some x.toFloat32
  | _ => none

/-- A sequence. -/
def listOf {α : Type} (shape : Shape α) : Shape (List α)
  | .list items => items.mapM shape
  | _ => none

/-- A sequence of exactly two. -/
def tuple {α β γ : Type} (first : Shape α) (second : Shape β) (make : α → β → γ) : Shape γ
  | .list [x, y] => do
    let x ← first x
    let y ← second y
    some (make x y)
  | _ => none

/-- A value or `null`. -/
def nullable {α : Type} (shape : Shape α) : Shape (Option α)
  | .null => some none
  | j => (shape j).map some

/-- The constant with a given name. -/
def constant? {α : Type} (names : List (String × α)) (name : String) : Option α :=
  names.lookup name

/-- A named constant: its name, or a record of that one name and `null`. -/
def word {α : Type} (names : List (String × α)) : Shape α
  | .text name => constant? names name
  | .record [(name, .null)] => constant? names name
  | _ => none

end Shape

/-! ### Records -/

/-- What is left to read of a record: its fields by name, or their values in order. -/
inductive RecordSource where
  | named (fields : List (String × Json))
  | ordered (values : List Json)

/-- Reads the fields of a record one after another. -/
abbrev RecordReader (α : Type) := StateT RecordSource Option α

namespace RecordReader

/-- The value of the next field, if there is one. A name that occurs twice has no value. -/
def next? (name : String) : RecordReader (Option Json) := fun source =>
  match source with
  | .named fields =>
    match fields.filter (·.1 == name) with
    | [] => some (none, source)
    | [(_, value)] => some (some value, source)
    | _ => none
  | .ordered [] => some (none, source)
  | .ordered (value :: rest) => some (some value, .ordered rest)

/-- A field with a default. -/
def optional {α : Type} (name : String) (default : α) (shape : Shape α) : RecordReader α := do
  match ← next? name with
  | none => pure default
  | some value => shape value

/-- A field that has to be there. -/
def required {α : Type} (name : String) (shape : Shape α) : RecordReader α := do
  match ← next? name with
  | none => failure
  | some value => shape value

/-- Reads all of a source. Values in order may not be left over; fields by name may. -/
def read? {α : Type} (reader : RecordReader α) (source : RecordSource) : Option α := do
  match ← reader source with
  | (_, .ordered (_ :: _)) => none
  | (a, _) => some a

end RecordReader

namespace Shape

/-- A record. Its leading fields may also be written as a sequence. -/
def record {α : Type} (reader : RecordReader α) : Shape α
  | .record fields => reader.read? (.named fields)
  | .list values => reader.read? (.ordered values)
  | _ => none

/-- A record that says by a `tag` field, or by the first of its values, which of several forms
it takes. All of it has to be readable, whether the form asks for it or not. -/
def tagged {α : Type} (tag : String) (form : String → RecordReader α) : Shape α := fun j =>
  if j.isReadable then
    record (do form (← RecordReader.required tag text)) j
  else none

end Shape

end BulletHell
