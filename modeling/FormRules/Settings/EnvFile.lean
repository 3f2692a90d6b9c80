import FormRules.Assoc
import FormRules.Text.Blank
import FormRules.Text.Lines

/-!
# Environment files

A file of variables has a binding per line: an optional `export`, a name, `=`
and a value.  Values stand bare, up to a comment that follows white space, or in
single or double quotes, which may span lines and know backslash escapes.  A
name without `=` takes back what was bound to it.  Where a binding stops making
sense the rest of the line is passed over.  A value may refer to an earlier
variable, or to one of the environment, as `${NAME}`, with a default after `:-`.
-/

namespace FormRules

namespace EnvFile

/-- White space that does not end a line. -/
def isInlineSpace (c : Char) : Bool := Text.isSpace c && c != '\n'

def skipInlineSpace (cs : List Char) : List Char := cs.dropWhile isInlineSpace

/-- Drops the rest of a line and the line break. -/
def skipLine (cs : List Char) : List Char := (cs.dropWhile (· != '\n')).drop 1

/-- The text up to the closing quote and what follows it.  A character after a
backslash closes nothing and escapes nothing. -/
def quotedPart (quote : Char) : List Char → Option (List Char × List Char)
  | [] => none
  | '\\' :: c :: rest => (quotedPart quote rest).map fun (part, rest) => ('\\' :: c :: part, rest)
  | c :: rest =>
    if c = quote then some ([], rest)
    else (quotedPart quote rest).map fun (part, rest) => (c :: part, rest)

/-- The character a backslash and a letter stand for in double quotes. -/
def escaped? : Char → Option Char
  | '\\' => some '\\'
  | '\'' => some '\''
  | '"' => some '"'
  | 'a' => some '\x07'
  | 'b' => some '\x08'
  | 'f' => some '\x0c'
  | 'n' => some '\n'
  | 'r' => some '\r'
  | 't' => some '\t'
  | 'v' => some '\x0b'
  | _ => none

/-- Replaces the escapes of quoted text; single quotes know only those of the
backslash and the single quote. -/
def unescape (single : Bool) : List Char → List Char
  | '\\' :: c :: rest =>
    match escaped? c with
    | some d =>
      if single && c != '\\' && c != '\'' then '\\' :: c :: unescape single rest
      else d :: unescape single rest
    | none => '\\' :: unescape single (c :: rest)
  | c :: rest => c :: unescape single rest
  | [] => []

/-- A bare value without its comment. -/
def withoutComment : List Char → List Char
  | [] => []
  | c :: rest =>
    if Text.isSpace c && (rest.dropWhile Text.isSpace).head? == some '#' then []
    else c :: withoutComment rest

/-- The value behind an equals sign.  A bare value loses its comment before the
white space around it, so a comment may stand right behind that of the sign. -/
def value? (cs : List Char) : Option (List Char × List Char) :=
  match skipInlineSpace cs with
  | '\'' :: rest => (quotedPart '\'' rest).map fun (v, rest) => (unescape true v, rest)
  | '"' :: rest => (quotedPart '"' rest).map fun (v, rest) => (unescape false v, rest)
  | _ =>
    let (line, rest) := cs.span (· != '\n')
    some (Text.trimChars Text.isSpace (withoutComment line), rest)

def name? (cs : List Char) : Option (List Char × List Char) :=
  match cs with
  | '\'' :: rest =>
    match rest.span (· != '\'') with
    | (name, _ :: rest) => if name.isEmpty then none else some (name, rest)
    | (_, []) => none
  | cs =>
    let (name, rest) := cs.span fun c => c != '=' && c != '#' && !Text.isSpace c
    if name.isEmpty then none else some (name, rest)

def skipExport (cs : List Char) : List Char :=
  match cs with
  | 'e' :: 'x' :: 'p' :: 'o' :: 'r' :: 't' :: c :: rest =>
    if isInlineSpace c then skipInlineSpace rest else cs
  | cs => cs

/-- What follows the end of a binding: a comment and the end of the line. -/
def lineEnd? (cs : List Char) : Option (List Char) :=
  match skipInlineSpace cs with
  | [] => some []
  | '#' :: comment => some (skipLine comment)
  | c :: rest => if c = '\n' then some rest else none

/-- A name and the value bound to it; the value is missing when there is no
`=`. -/
structure Binding where
  name : List Char
  value : Option (List Char)

/-- Ends a binding at the end of its line, or fails where the line goes on. -/
def endBinding (name : List Char) (value : Option (List Char)) (cs : List Char) :
    Except (List Char) (Binding × List Char) :=
  match lineEnd? cs with
  | some rest => .ok (⟨name, value⟩, rest)
  | none => .error cs

/-- Reads one binding, or fails with the text from the place where it stops
making sense. -/
def readBinding (cs : List Char) : Except (List Char) (Binding × List Char) :=
  let cs := skipExport cs
  match name? cs with
  | none => .error cs
  | some (name, rest) =>
    match skipInlineSpace rest with
    | '=' :: rest =>
      match value? rest with
      | none => .error rest
      | some (value, rest) => endBinding name (some value) rest
    | rest => endBinding name none rest

/-- The bindings of a text, at most `steps` lines of it. -/
def bindingsFrom (steps : Nat) (cs : List Char) : List Binding :=
  match steps, cs.dropWhile Text.isSpace with
  | 0, _ => []
  | _, [] => []
  | steps + 1, cs =>
    match readBinding cs with
    | .ok (binding, rest) => binding :: bindingsFrom steps rest
    | .error rest => bindingsFrom steps (skipLine rest)

/-- Replaces the references to variables in a value. -/
def interpolate (known : Assoc String) (steps : Nat) (cs : List Char) : List Char :=
  match steps, cs with
  | steps + 1, '$' :: '{' :: rest =>
    let (inner, after) := rest.span (· != '}')
    let (name, tail) := inner.span (· != ':')
    let default :=
      match tail with
      | [] => some []
      | ':' :: '-' :: default => some default
      | _ => none
    match after, default with
    | _ :: after, some default =>
      let found := (known.get? (String.ofList name)).elim default String.toList
      found ++ interpolate known steps after
    | _, _ => '$' :: '{' :: interpolate known steps rest
  | steps + 1, c :: rest => c :: interpolate known steps rest
  | _, cs => cs

/-- Adds a binding to the definitions of the lines above it.  What these define
counts for references before what the environment does; a name that was taken
back stands for nothing. -/
def define (environment : Assoc String) (defined : Assoc (Option String)) (binding : Binding) :
    Assoc (Option String) :=
  let known := defined.foldl (fun known e => Assoc.set known e.1 (e.2.getD "")) environment
  defined.set (String.ofList binding.name)
    (binding.value.map fun value =>
      String.ofList (interpolate known (value.length + 1) value))

/-- The variables a file defines, those that were taken back without a value. -/
def definitions (environment : Assoc String) (content : String) : Assoc (Option String) :=
  let cs := Text.unifyLineBreaks (Text.withoutByteOrderMark content.toList)
  (bindingsFrom (cs.length + 1) cs).foldl (define environment) []

end EnvFile

end FormRules
