import BulletHell.Json.Basic
import BulletHell.Number.Decimal

/-!
# Writing JSON text

Compact text on one line: no blanks, keys in the order of the record, and escapes only where
the grammar asks for them.

## Main definitions

* `Json.renderWith` — the text of a value, given how its floating-point numbers are written.
* `Json.render` — the text with the shortest numerals that read back; what is not finite is
  written as `null`.
-/

namespace BulletHell

namespace Json

/-- A hexadecimal digit in lower case. -/
def hexChar (n : Nat) : Char :=
  if n < 10 then Char.ofNat (48 + n) else Char.ofNat (87 + n)

/-- A character inside a string. Quotes, backslashes and control characters are escaped. -/
def escapeChar (c : Char) : List Char :=
  if c == '\x22' then ['\\', '\x22']
  else if c == '\\' then ['\\', '\\']
  else
    match c.toNat with
    | 8 => ['\\', 'b']
    | 9 => ['\\', 't']
    | 10 => ['\\', 'n']
    | 12 => ['\\', 'f']
    | 13 => ['\\', 'r']
    | n =>
      if n < 32 then ['\\', 'u', '0', '0', hexChar (n / 16), hexChar (n % 16)] else [c]

/-- A string between quotes. -/
def quote (s : String) : String :=
  String.ofList ('\x22' :: (s.toList.flatMap escapeChar ++ ['\x22']))

/-- How the two kinds of floating-point numbers are written. -/
structure NumberStyle where
  single : Float32 → String
  double : Float → String

/-- Doubles are positional up to sixteen digits before the point and four zeros after it. -/
def doubleStyle : ScientificStyle := ⟨16, 4⟩

/-- Singles are positional up to thirteen digits before the point and five zeros after it. -/
def singleStyle : ScientificStyle := ⟨13, 5⟩

/-- The shortest numeral that reads back. -/
def shortestStyle : NumberStyle where
  single x :=
    match singleValue x with
    | .finite negative m scale => scientific singleStyle .single negative m scale
    | _ => "null"
  double x :=
    match doubleValue x with
    | .finite negative m scale => scientific doubleStyle .double negative m scale
    | _ => "null"

/-- Text between brackets, with commas. -/
def enclose (opening closing : Char) (items : List String) : String :=
  String.singleton opening ++ String.intercalate "," items ++ String.singleton closing

mutual

/-- The text of a value. -/
def renderWith (style : NumberStyle) : Json → String
  | null => "null"
  | bool b => if b then "true" else "false"
  | integer n => toString n
  | double x => style.double x
  | single x => style.single x
  | text s => quote s
  | list items => enclose '[' ']' (renderItems style items)
  | record fields => enclose '\x7b' '\x7d' (renderFields style fields)
  | unreadable => "null"

def renderItems (style : NumberStyle) : List Json → List String
  | [] => []
  | item :: rest => renderWith style item :: renderItems style rest

def renderFields (style : NumberStyle) : List (String × Json) → List String
  | [] => []
  | (key, value) :: rest =>
    (quote key ++ ":" ++ renderWith style value) :: renderFields style rest

end

/-- The text of a value with shortest numerals. -/
def render (j : Json) : String :=
  j.renderWith shortestStyle

end Json

end BulletHell
