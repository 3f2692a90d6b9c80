import FormRules.Double.Numeral
import FormRules.Value.Basic

/-!
# Reading JSON

A document is one value with white space around it.  Besides the standard
values, `NaN`, `Infinity` and `-Infinity` are read.  A key that occurs twice
keeps its first place and its last value.  A text that is no document is
reported with what was expected and the place where it was missing; one that is
nested too deeply is given up where it gets too deep.
-/

namespace FormRules

namespace Json

inductive SyntaxFault where
  | noValue
  | noKey
  | noColon
  | noComma
  | extraData
  | unterminatedText
  | controlCharacter
  | badEscape
  | badNumberEscape
  | byteOrderMark
deriving DecidableEq, Repr

def SyntaxFault.text : SyntaxFault → String
  | noValue => "Expecting value"
  | noKey => "Expecting property name enclosed in double quotes"
  | noColon => "Expecting ':' delimiter"
  | noComma => "Expecting ',' delimiter"
  | extraData => "Extra data"
  | unterminatedText => "Unterminated string starting at"
  | controlCharacter => "Invalid control character at"
  | badEscape => "Invalid \\escape"
  | badNumberEscape => "Invalid \\uXXXX escape"
  | byteOrderMark => "Unexpected UTF-8 BOM (decode using utf-8-sig)"

/-- Why reading ends. -/
inductive Failure where
  /-- A fault at the start of a remainder of the text. -/
  | faultAt (fault : SyntaxFault) (rest : List Char)
  | tooDeep

/-- What was read, and the remainder of the text. -/
abbrev Step (α : Type) := Except Failure (α × List Char)

def failAt {α : Type} (fault : SyntaxFault) (rest : List Char) : Step α :=
  .error (.faultAt fault rest)

/-- How many lists and objects can be read inside each other. -/
def maxDepth : Nat := 980

def isSpace (c : Char) : Bool := c == ' ' || c == '\t' || c == '\n' || c == '\r'

def skipSpace (cs : List Char) : List Char := cs.dropWhile isSpace

def hexValue? (c : Char) : Option Nat :=
  if '0' ≤ c ∧ c ≤ '9' then some (c.toNat - 0x30)
  else if 'a' ≤ c ∧ c ≤ 'f' then some (c.toNat - 0x61 + 10)
  else if 'A' ≤ c ∧ c ≤ 'F' then some (c.toNat - 0x41 + 10)
  else none

def hexNumber? (a b c d : Char) : Option Nat := do
  let a ← hexValue? a
  let b ← hexValue? b
  let c ← hexValue? c
  let d ← hexValue? d
  some (((a * 16 + b) * 16 + c) * 16 + d)

/-- The character a single letter stands for after a backslash. -/
def escaped? : Char → Option Char
  | '"' => some '"'
  | '\\' => some '\\'
  | '/' => some '/'
  | 'b' => some '\x08'
  | 'f' => some '\x0c'
  | 'n' => some '\n'
  | 'r' => some '\r'
  | 't' => some '\t'
  | _ => none

def isHighSurrogate (n : Nat) : Bool := 0xD800 ≤ n && n < 0xDC00

def isLowSurrogate (n : Nat) : Bool := 0xDC00 ≤ n && n < 0xE000

/-- The character two surrogates stand for together. -/
def ofSurrogates (high low : Nat) : Char :=
  Char.ofNat (0x10000 + (high - 0xD800) * 0x400 + (low - 0xDC00))

/-- The rest of a text whose opening quote is the first character of
`opening`; `read` holds what was read, the last character first. -/
def textFrom (opening : List Char) (read : List Char) : List Char → Step String
  | [] => failAt .unterminatedText opening
  | '"' :: rest => .ok (String.ofList read.reverse, rest)
  | '\\' :: 'u' :: a :: b :: c :: d :: '\\' :: 'u' :: a' :: b' :: c' :: d' :: next :: rest =>
    let second := 'u' :: a' :: b' :: c' :: d' :: next :: rest
    match hexNumber? a b c d with
    | none => failAt .badNumberEscape ('u' :: a :: b :: c :: d :: '\\' :: second)
    | some n =>
      if isHighSurrogate n then
        match hexNumber? a' b' c' d' with
        | none => failAt .badNumberEscape second
        | some m =>
          if isLowSurrogate m then textFrom opening (ofSurrogates n m :: read) (next :: rest)
          else textFrom opening (Char.ofNat n :: read) ('\\' :: second)
      else textFrom opening (Char.ofNat n :: read) ('\\' :: second)
  | '\\' :: 'u' :: a :: b :: c :: d :: next :: rest =>
    match hexNumber? a b c d with
    | none => failAt .badNumberEscape ('u' :: a :: b :: c :: d :: next :: rest)
    | some n => textFrom opening (Char.ofNat n :: read) (next :: rest)
  | '\\' :: 'u' :: rest => failAt .badNumberEscape ('u' :: rest)
  | '\\' :: c :: rest =>
    match escaped? c with
    | some d => textFrom opening (d :: read) rest
    | none => failAt .badEscape ('\\' :: c :: rest)
  | ['\\'] => failAt .unterminatedText opening
  | c :: rest =>
    if c.toNat < 0x20 then failAt .controlCharacter (c :: rest)
    else textFrom opening (c :: read) rest
termination_by cs => cs.length

/-- The digits at the start of a text, and the rest. -/
def digits (cs : List Char) : List Char × List Char :=
  (cs.takeWhile Char.isDigit, cs.dropWhile Char.isDigit)

/-- The integer part of a number: zero, or digits that do not begin with it. -/
def wholePart? (cs : List Char) : Option (List Char × List Char) :=
  match cs with
  | '0' :: rest => some (['0'], rest)
  | cs =>
    match digits cs with
    | ([], _) => none
    | found => some found

/-- A point and digits, if they follow. -/
def fractionPart (cs : List Char) : List Char × List Char :=
  match cs with
  | '.' :: rest =>
    match digits rest with
    | ([], _) => ([], cs)
    | (ds, rest) => ('.' :: ds, rest)
  | cs => ([], cs)

/-- An exponent, if one follows. -/
def exponentPart (cs : List Char) : List Char × List Char :=
  match cs with
  | e :: rest =>
    if e = 'e' || e = 'E' then
      let (sign, afterSign) : List Char × List Char :=
        match rest with
        | '+' :: rest => (['+'], rest)
        | '-' :: rest => (['-'], rest)
        | rest => ([], rest)
      match digits afterSign with
      | ([], _) => ([], cs)
      | (ds, rest) => (e :: sign ++ ds, rest)
    else ([], cs)
  | [] => ([], cs)

/-- A number at the start of a text: an integer, or a double when it has a
fraction or an exponent. -/
def number? (cs : List Char) : Option (Value × List Char) := do
  let (sign, unsigned) : List Char × List Char :=
    match cs with
    | '-' :: rest => (['-'], rest)
    | cs => ([], cs)
  let (whole, rest) ← wholePart? unsigned
  let (fraction, rest) := fractionPart rest
  let (exponent, rest) := exponentPart rest
  if fraction.isEmpty && exponent.isEmpty then
    let n : Int := Text.digitsValue (whole.filterMap Text.asciiDigit?)
    some (.int (if sign.isEmpty then n else -n), rest)
  else
    let x ← Numeral.read? (String.ofList (sign ++ whole ++ fraction ++ exponent))
    some (.float x, rest)

mutual

/-- The value at the start of a text.  Inside it `depth` lists and objects can be
nested, and `steps` bounds the steps of reading. -/
def valueAt (steps depth : Nat) (cs : List Char) : Step Value :=
  match steps with
  | 0 => failAt .noValue cs
  | steps + 1 =>
    match cs with
    | '"' :: rest => (textFrom cs [] rest).map fun (s, rest) => (.str s, rest)
    | '{' :: rest =>
      match depth with
      | 0 => .error .tooDeep
      | depth + 1 =>
        match skipSpace rest with
        | '}' :: rest => .ok (.obj [], rest)
        | rest =>
          (membersAt steps depth rest).map fun (ms, rest) => (.obj (Assoc.ofPairs ms), rest)
    | '[' :: rest =>
      match depth with
      | 0 => .error .tooDeep
      | depth + 1 =>
        match skipSpace rest with
        | ']' :: rest => .ok (.list [], rest)
        | rest => (itemsAt steps depth rest).map fun (vs, rest) => (.list vs, rest)
    | 'n' :: 'u' :: 'l' :: 'l' :: rest => .ok (.null, rest)
    | 't' :: 'r' :: 'u' :: 'e' :: rest => .ok (.bool true, rest)
    | 'f' :: 'a' :: 'l' :: 's' :: 'e' :: rest => .ok (.bool false, rest)
    | 'N' :: 'a' :: 'N' :: rest => .ok (.float .nan, rest)
    | 'I' :: 'n' :: 'f' :: 'i' :: 'n' :: 'i' :: 't' :: 'y' :: rest =>
      .ok (.float (.infinite false), rest)
    | '-' :: 'I' :: 'n' :: 'f' :: 'i' :: 'n' :: 'i' :: 't' :: 'y' :: rest =>
      .ok (.float (.infinite true), rest)
    | cs =>
      match number? cs with
      | some found => .ok found
      | none => failAt .noValue cs

/-- The elements of a list and its closing bracket. -/
def itemsAt (steps depth : Nat) (cs : List Char) : Step (List Value) :=
  match steps with
  | 0 => failAt .noValue cs
  | steps + 1 =>
    match valueAt steps depth cs with
    | .error e => .error e
    | .ok (v, rest) =>
      match skipSpace rest with
      | ']' :: rest => .ok ([v], rest)
      | ',' :: rest =>
        (itemsAt steps depth (skipSpace rest)).map fun (vs, rest) => (v :: vs, rest)
      | rest => failAt .noComma rest

/-- The members of an object and its closing brace. -/
def membersAt (steps depth : Nat) (cs : List Char) : Step (List (String × Value)) :=
  match steps with
  | 0 => failAt .noKey cs
  | steps + 1 =>
    match cs with
    | '"' :: rest =>
      match textFrom cs [] rest with
      | .error e => .error e
      | .ok (key, rest) =>
        match skipSpace rest with
        | ':' :: rest =>
          match valueAt steps depth (skipSpace rest) with
          | .error e => .error e
          | .ok (v, rest) =>
            match skipSpace rest with
            | '}' :: rest => .ok ([(key, v)], rest)
            | ',' :: rest =>
              (membersAt steps depth (skipSpace rest)).map fun (ms, rest) =>
                ((key, v) :: ms, rest)
            | rest => failAt .noComma rest
        | rest => failAt .noColon rest
    | cs => failAt .noKey cs

end

/-- A whole text as a value.  Of two steps of reading one uses up a character, so
twice the length of the text bounds their number. -/
def document (cs : List Char) : Except Failure Value :=
  match cs with
  | '\uFEFF' :: _ => .error (.faultAt .byteOrderMark cs)
  | cs =>
    match valueAt (2 * cs.length + 1) maxDepth (skipSpace cs) with
    | .error e => .error e
    | .ok (v, rest) =>
      match skipSpace rest with
      | [] => .ok v
      | rest => .error (.faultAt .extraData rest)

/-- A fault and the part of the text in front of it. -/
structure SyntaxError where
  fault : SyntaxFault
  before : List Char

/-- A fault with its line and column, counted from one, and its position,
counted from zero. -/
def SyntaxError.message (e : SyntaxError) : String :=
  let line := e.before.count '\n' + 1
  let column := (e.before.reverse.takeWhile (· != '\n')).length + 1
  e.fault.text ++ ": line " ++ Text.natText line ++ " column " ++ Text.natText column ++
    " (char " ++ Text.natText e.before.length ++ ")"

/-- Why a text cannot be read. -/
inductive ReadError where
  | malformed (e : SyntaxError)
  | tooDeep

def read (s : String) : Except ReadError Value :=
  let cs := s.toList
  (document cs).mapError fun
    | .faultAt fault rest => .malformed ⟨fault, cs.take (cs.length - rest.length)⟩
    | .tooDeep => .tooDeep

end Json

end FormRules
