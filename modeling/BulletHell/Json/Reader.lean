import BulletHell.Json.Basic
import BulletHell.Number.Decimal

/-!
# Reading JSON text

The strict grammar: no comments, no trailing commas, nothing after the value. Reading goes in
two passes, each a recursion on a list. `Lexer` cuts characters into tokens and `Builder`
assembles tokens into one value, so neither needs a bound on nesting or length.

## Main definitions

* `Token`, `tokens?` — the lexical elements of a text.
* `Builder.step?` — what one token does to the part of the value built so far.
* `Json.parse?` — the value of a text, if it is well formed.

## Implementation notes

A string may spell a code point above the basic plane as two escapes. Half of such a pair is
lexically fine and has no value; it becomes a token without text. The object that has such a
string as a key has no value either.
-/

namespace BulletHell

/-- A lexical element. A string without a value carries `none`. -/
inductive Token where
  | openList | closeList | openRecord | closeRecord | comma | colon
  | string (s : Option String)
  | scalar (value : Json)

namespace Lexer

/-! ### Numbers -/

/-- Digits without a superfluous leading zero. -/
def isWholePart : List Char → Bool
  | [] => false
  | ['0'] => true
  | '0' :: _ => false
  | digits => digits.all Char.isDigit

/-- The integers that are read without rounding. -/
def fitsWord (n : Int) : Bool :=
  -0x8000000000000000 ≤ n && n < 0x10000000000000000

/-- The value of a decimal as a double; beyond the finite doubles it has none. -/
def doubleOfDecimal (d : Decimal) : Json :=
  let x := d.toDouble
  if x.isFinite then .double x else .unreadable

/-- The value of a numeral, `none` if the grammar refuses it. Minus zero is a double, since
the integers have no such number. -/
def number? (numeral : List Char) : Option Json :=
  let (negative, body) :=
    match numeral with
    | '-' :: rest => (true, rest)
    | rest => (false, rest)
  let whole := body.takeWhile Char.isDigit
  let afterWhole := body.dropWhile Char.isDigit
  let (fraction, hasPoint, tail) :=
    match afterWhole with
    | '.' :: tail => (tail.takeWhile Char.isDigit, true, tail.dropWhile Char.isDigit)
    | tail => ([], false, tail)
  if !isWholePart whole || (hasPoint && fraction.isEmpty) then none
  else if !hasPoint && tail.isEmpty then
    let magnitude := digitsValue whole
    let n : Int := if negative then -magnitude else magnitude
    if fitsWord n && !(negative && magnitude == 0) then some (.integer n)
    else some (doubleOfDecimal ⟨negative, magnitude, 0⟩)
  else
    (readExponent? tail).map fun exponent =>
      doubleOfDecimal ⟨negative, digitsValue (whole ++ fraction), exponent - fraction.length⟩

/-! ### Words -/

/-- The value of a bare word or numeral. -/
def scalar? (word : List Char) : Option Json :=
  match String.ofList word with
  | "null" => some .null
  | "true" => some (.bool true)
  | "false" => some (.bool false)
  | _ => number? word

/-- The characters that make up words and numerals. -/
def isWordChar (c : Char) : Bool :=
  c.isAlphanum || c == '-' || c == '+' || c == '.'

/-! ### Strings -/

/-- One unit of a string: a character, or half of a surrogate pair. -/
inductive Piece where
  | char (c : Char)
  | high (n : Nat)
  | low (n : Nat)

/-- The text of a string, newest piece first; a half without its partner leaves none. -/
def textOfPieces? : List Piece → List Char → Option (List Char)
  | [], text => some text
  | .char c :: rest, text => textOfPieces? rest (c :: text)
  | .low l :: .high h :: rest, text =>
    textOfPieces? rest (Char.ofNat (65536 + h * 1024 + l) :: text)
  | _, _ => none

/-- The piece named by a four-digit escape. -/
def pieceOfUnit (n : Nat) : Piece :=
  if 0xD800 ≤ n && n < 0xDC00 then .high (n - 0xD800)
  else if 0xDC00 ≤ n && n < 0xE000 then .low (n - 0xDC00)
  else .char (Char.ofNat n)

/-- The character named by a one-letter escape. -/
def simpleEscape? (c : Char) : Option Char :=
  match c with
  | '\x22' => some '\x22'
  | '\\' => some '\\'
  | '/' => some '/'
  | 'b' => some (Char.ofNat 8)
  | 'f' => some (Char.ofNat 12)
  | 'n' => some (Char.ofNat 10)
  | 'r' => some (Char.ofNat 13)
  | 't' => some (Char.ofNat 9)
  | _ => none

/-- The value of a hexadecimal digit in either case. -/
def hexDigit? (c : Char) : Option Nat :=
  let n := c.toNat
  if 48 ≤ n && n < 58 then some (n - 48)
  else if 97 ≤ n && n < 103 then some (n - 87)
  else if 65 ≤ n && n < 71 then some (n - 55)
  else none

/-! ### The lexer proper -/

/-- Where the lexer stands between two characters. -/
inductive Mode where
  /-- Between tokens. -/
  | outside
  /-- In a word or numeral, read so far in reverse. -/
  | word (read : List Char)
  /-- In a string. -/
  | string (pieces : List Piece)
  /-- After a backslash. -/
  | escape (pieces : List Piece)
  /-- In a four-digit escape with some digits to come. -/
  | unit (pieces : List Piece) (digitsLeft : Nat) (value : Nat)

/-- Single-character tokens. -/
def punctuation? (c : Char) : Option Token :=
  match c with
  | '[' => some .openList
  | ']' => some .closeList
  | '\x7b' => some .openRecord
  | '\x7d' => some .closeRecord
  | ',' => some .comma
  | ':' => some .colon
  | _ => none

/-- Reads a character between tokens: the mode after it and the token it makes. -/
def outside? (c : Char) : Option (Mode × List Token) :=
  if c == ' ' || c == '\t' || c == '\n' || c == '\r' then some (.outside, [])
  else if c == '\x22' then some (.string [], [])
  else if isWordChar c then some (.word [c], [])
  else (punctuation? c).map fun token => (.outside, [token])

/-- Reads one character: the mode after it and the tokens it completes, newest first. -/
def step? (mode : Mode) (c : Char) : Option (Mode × List Token) :=
  match mode with
  | .outside => outside? c
  | .word read =>
    if isWordChar c then some (.word (c :: read), [])
    else do
      let value ← scalar? read.reverse
      let (next, tokens) ← outside? c
      some (next, tokens ++ [.scalar value])
  | .string pieces =>
    if c == '\x22' then
      some (.outside, [.string ((textOfPieces? pieces []).map String.ofList)])
    else if c == '\\' then some (.escape pieces, [])
    else if c.toNat < 32 then none
    else some (.string (.char c :: pieces), [])
  | .escape pieces =>
    if c == 'u' then some (.unit pieces 4 0, [])
    else (simpleEscape? c).map fun escaped => (.string (.char escaped :: pieces), [])
  | .unit pieces digitsLeft value => do
    let digit ← hexDigit? c
    let value := 16 * value + digit
    if digitsLeft ≤ 1 then some (.string (pieceOfUnit value :: pieces), [])
    else some (.unit pieces (digitsLeft - 1) value, [])

/-- Runs the lexer, collecting tokens in reverse. A text may end between tokens or after a
word, but not inside a string. -/
def run? : Mode → List Token → List Char → Option (List Token)
  | .outside, tokens, [] => some tokens
  | .word read, tokens, [] => (scalar? read.reverse).map fun value => .scalar value :: tokens
  | _, _, [] => none
  | mode, tokens, c :: rest =>
    match step? mode c with
    | none => none
    | some (next, new) => run? next (new ++ tokens) rest

end Lexer

/-- The tokens of a text in order. -/
def tokens? (s : String) : Option (List Token) :=
  (Lexer.run? .outside [] s.toList).map List.reverse

namespace Builder

/-- A container that is still open, with what it holds so far in reverse. A record remembers
the key that waits for its value and whether all keys so far had a text. -/
inductive Frame where
  | list (items : List Json)
  | record (fields : List (String × Json)) (key : String) (readable : Bool)

/-- What the grammar admits next. -/
inductive Expectation where
  /-- A value. -/
  | value
  /-- A value, or the end of the list just opened. -/
  | valueOrEnd
  /-- A key. -/
  | key
  /-- A key, or the end of the record just opened. -/
  | keyOrEnd
  /-- The colon after a key. -/
  | colon
  /-- A comma or the end of the innermost container. -/
  | separator
  /-- Nothing: the value is complete. -/
  | nothing (result : Json)

/-- The part of a value built so far: open containers, innermost first. -/
structure State where
  frames : List Frame
  expects : Expectation

/-- Puts a finished value where it belongs. -/
def place (frames : List Frame) (value : Json) : State :=
  match frames with
  | [] => ⟨[], .nothing value⟩
  | .list items :: rest => ⟨.list (value :: items) :: rest, .separator⟩
  | .record fields key readable :: rest =>
    ⟨.record ((key, value) :: fields) key readable :: rest, .separator⟩

/-- Takes a key. A key without a text spoils its record. -/
def placeKey? (frames : List Frame) (key : Option String) : Option State :=
  match frames with
  | .record fields _ readable :: rest =>
    some ⟨.record fields (key.getD "") (readable && key.isSome) :: rest, .colon⟩
  | _ => none

/-- Closes a list. -/
def closeList? : List Frame → Option State
  | .list items :: rest => some (place rest (.list items.reverse))
  | _ => none

/-- Closes a record. -/
def closeRecord? : List Frame → Option State
  | .record fields _ readable :: rest =>
    some (place rest (if readable then .record fields.reverse else .unreadable))
  | _ => none

/-- Reads a token where a value may start. -/
def startValue? (frames : List Frame) : Token → Option State
  | .openList => some ⟨.list [] :: frames, .valueOrEnd⟩
  | .openRecord => some ⟨.record [] "" true :: frames, .keyOrEnd⟩
  | .string (some s) => some (place frames (.text s))
  | .string none => some (place frames .unreadable)
  | .scalar value => some (place frames value)
  | _ => none

/-- What one token does, `none` where the grammar refuses it. -/
def step? (state : State) (token : Token) : Option State :=
  match state.expects, token with
  | .value, token => startValue? state.frames token
  | .valueOrEnd, .closeList => closeList? state.frames
  | .valueOrEnd, token => startValue? state.frames token
  | .key, .string key => placeKey? state.frames key
  | .keyOrEnd, .string key => placeKey? state.frames key
  | .keyOrEnd, .closeRecord => closeRecord? state.frames
  | .colon, .colon => some ⟨state.frames, .value⟩
  | .separator, .closeList => closeList? state.frames
  | .separator, .closeRecord => closeRecord? state.frames
  | .separator, .comma =>
    match state.frames with
    | .list _ :: _ => some ⟨state.frames, .value⟩
    | .record .. :: _ => some ⟨state.frames, .key⟩
    | [] => none
  | _, _ => none

/-- Assembles tokens into one value. -/
def run? : State → List Token → Option Json
  | ⟨_, .nothing result⟩, [] => some result
  | _, [] => none
  | state, token :: rest =>
    match step? state token with
    | none => none
    | some next => run? next rest

end Builder

/-- The value of a JSON text. -/
def Json.parse? (s : String) : Option Json := do
  let tokens ← tokens? s
  Builder.run? ⟨[], .value⟩ tokens

end BulletHell
