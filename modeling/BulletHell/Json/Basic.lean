/-!
# JSON values

A value as a program sees it: numbers are already numbers and strings are already strings.
Text that obeys the grammar but stands for no value is kept as `unreadable`, because a
document may hold such text in a place that nobody reads.

## Main definitions

* `Json` — the values, with an object as a list of fields in written order.
* `Json.isReadable` — nothing inside is `unreadable`.
* `Json.finite` — the value with `null` for every number that JSON text cannot express.
-/

namespace BulletHell

/-- A JSON value. A numeral without fraction and exponent that fits 64 bits is an `integer`;
all others are read as `double`. `single` only occurs in values made for writing. -/
inductive Json where
  | null
  | bool (b : Bool)
  | integer (n : Int)
  | double (x : Float)
  | single (x : Float32)
  | text (s : String)
  | list (items : List Json)
  | record (fields : List (String × Json))
  | unreadable

namespace Json

mutual

/-- No string with half a surrogate pair and no number beyond the doubles anywhere inside. -/
def isReadable : Json → Bool
  | unreadable => false
  | list items => allReadable items
  | record fields => allFieldsReadable fields
  | _ => true

def allReadable : List Json → Bool
  | [] => true
  | item :: rest => item.isReadable && allReadable rest

def allFieldsReadable : List (String × Json) → Bool
  | [] => true
  | (_, value) :: rest => value.isReadable && allFieldsReadable rest

end

mutual

/-- The value as it reads back from its text: infinities and what is not a number become
`null`. -/
def finite : Json → Json
  | double x => if x.isFinite then double x else null
  | single x => if x.isFinite then single x else null
  | list items => list (finiteItems items)
  | record fields => record (finiteFields fields)
  | j => j

def finiteItems : List Json → List Json
  | [] => []
  | item :: rest => item.finite :: finiteItems rest

def finiteFields : List (String × Json) → List (String × Json)
  | [] => []
  | (key, value) :: rest => (key, value.finite) :: finiteFields rest

end

/-- A pair of numbers. -/
def pair (x y : Json) : Json :=
  .list [x, y]

/-- A natural number. -/
def natural (n : Nat) : Json :=
  .integer n

/-- A sequence. -/
def ofList {α : Type} (toJson : α → Json) (items : List α) : Json :=
  .list (items.map toJson)

/-- A value that may be missing. -/
def ofOption {α : Type} (toJson : α → Json) : Option α → Json
  | some a => toJson a
  | none => .null

end Json

end BulletHell
