import Ambient.Json.Failure
import Ambient.Text.Hexadecimal

/-!
# Blanks, words and texts of JSON

The readers of the smallest parts.  A reader takes the unread text and gives
its result with what is left, or a failure.

A text literal is read with a limit: a list at least as long as the unread
text.  Each step takes at least one character, so the limit only tells the
recursion that it ends; a caller passes the unread text itself.
-/

namespace Ambient.Json

/-- What reading yields: a result and the text that is left, or a failure. -/
abbrev Reader (α : Type) :=
  List Char → Except Failure (α × List Char)

/-! ## Blanks -/

/-- Whether a character may stand between tokens. -/
def isBlank (c : Char) : Bool :=
  c = ' ' || c = '\n' || c = '\t' || c = '\r'

/-- The text without the blanks at its start. -/
def skipBlanks (s : List Char) : List Char :=
  s.dropWhile isBlank

/-! ## Words -/

/-- Read the letters that remain of one of the words `null`, `true`, `false`. -/
def word : List Char → Reader Unit
  | [], s => .ok ((), s)
  | _ :: _, [] => .error (.here .endInValue [])
  | w :: ws, c :: s => if c = w then word ws s else .error (.after .expectedWord (c :: s) 1)

/-! ## Texts -/

def hexValue? (a b c d : Char) : Option Nat :=
  match Text.hexDigit? a, Text.hexDigit? b, Text.hexDigit? c, Text.hexDigit? d with
  | some w, some x, some y, some z => some (((w * 16 + x) * 16 + y) * 16 + z)
  | _, _, _, _ => none

/-- Read the four hexadecimal digits of an escape.  Four bytes are looked at
together: where fewer are left, the text has ended. -/
def hexEscape : Reader Nat
  | a :: b :: c :: d :: rest =>
      match hexValue? a b c d with
      | some n => .ok (n, rest)
      | none => .error (.after .invalidEscape (a :: b :: c :: d :: rest) 4)
  | s =>
      if byteCount s < 4 then .error (.here .endInText [])
      else .error (.after .invalidEscape s 4)

/-- Whether a number is the first half of a surrogate pair. -/
def isHighSurrogate (n : Nat) : Bool :=
  decide (0xD800 ≤ n ∧ n ≤ 0xDBFF)

/-- Whether a number is the second half of a surrogate pair. -/
def isLowSurrogate (n : Nat) : Bool :=
  decide (0xDC00 ≤ n ∧ n ≤ 0xDFFF)

/-- The character of a surrogate pair. -/
def pairChar (high low : Nat) : Char :=
  Char.ofNat ((high - 0xD800) * 0x400 + (low - 0xDC00) + 0x10000)

/-- Read the second half of a surrogate pair, which must be an escape of its own. -/
def lowEscape (high : Nat) : Reader Char
  | '\\' :: 'u' :: rest =>
      match hexEscape rest with
      | .error e => .error e
      | .ok (low, rest) =>
          if isLowSurrogate low then .ok (pairChar high low, rest)
          else .error (.here .loneSurrogate rest)
  | ['\\'] => .error (.here .endInText [])
  | '\\' :: rest => .error (.after .brokenSurrogatePair rest 1)
  | [] => .error (.here .endInText [])
  | s => .error (.after .brokenSurrogatePair s 1)

/-- Read what follows the letter `u` of an escape. -/
def unicodeEscape : Reader Char := fun s =>
  match hexEscape s with
  | .error e => .error e
  | .ok (n, rest) =>
      if isLowSurrogate n then .error (.here .loneSurrogate rest)
      else if isHighSurrogate n then lowEscape n rest
      else .ok (Char.ofNat n, rest)

/-- The character that a one-letter escape stands for. -/
def shortEscape? : Char → Option Char
  | '"' => some '"'
  | '\\' => some '\\'
  | '/' => some '/'
  | 'b' => some '\x08'
  | 'f' => some '\x0c'
  | 'n' => some '\n'
  | 'r' => some '\r'
  | 't' => some '\t'
  | _ => none

/-- Read what follows the backslash of an escape. -/
def escape : Reader Char
  | [] => .error (.here .endInText [])
  | 'u' :: rest => unicodeEscape rest
  | c :: rest =>
      match shortEscape? c with
      | some e => .ok (e, rest)
      | none => .error (.after .invalidEscape (c :: rest) 1)

/-- Whether a character may not stand in a text literal unescaped. -/
def isControl (c : Char) : Bool :=
  decide (c.toNat < 0x20)

/-- Read a text literal after its opening quote; `seen` holds the characters so
far, last first. -/
def textFrom (seen : List Char) : List Char → Reader (List Char)
  | _, [] => .error (.here .endInText [])
  | _, '"' :: rest => .ok (seen.reverse, rest)
  | [], s => .error (.here .endInText s)
  | _ :: limit, '\\' :: rest =>
      match escape rest with
      | .error e => .error e
      | .ok (c, rest) => textFrom (c :: seen) limit rest
  | _ :: limit, c :: rest =>
      if isControl c then .error (.after .controlCharacter (c :: rest) 1)
      else textFrom (c :: seen) limit rest

/-- Read a text literal after its opening quote. -/
def textBody : Reader (List Char) := fun s =>
  textFrom [] s s

end Ambient.Json
