import FormRules.Assoc
import FormRules.Text.Lines
import FormRules.Text.Quoted

/-!
# Files of a command

The files a command can read, by their path in the working directory.  Paths
are compared in their short form, without empty parts and parts that stay in
place.  A path leads nowhere when it or one of its parts is too long, when it
goes on behind a file, and when a directory on it is missing.
-/

namespace FormRules

namespace Cli

abbrev Files := Assoc String

def pathParts (path : String) : List String :=
  (path.splitOn "/").filter fun part => !part.isEmpty && part != "."

/-- The slashes a path begins with: two are told from one, and more count as one. -/
def rootOf (path : String) : String :=
  match path.toList.takeWhile (· == '/') with
  | [] => ""
  | [_, _] => "//"
  | _ => "/"

/-- The short form of a path. -/
def shortPath (path : String) : String :=
  let short := rootOf path ++ "/".intercalate (pathParts path)
  if short.isEmpty then "." else short

def fileName (path : String) : String := (pathParts path).getLast?.getD ""

/-- Whether a text can be a path at all: no path holds the character zero. -/
def isPath (text : String) : Bool := !text.toList.contains '\x00'

/-- The most bytes a path can have. -/
def maxPathBytes : Nat := 4095

/-- The most bytes a part of a path can have. -/
def maxPartBytes : Nat := 255

/-- The parts of a path below the directories that are always there. -/
def partsBelow (path : String) : List String := (pathParts path).dropWhile (· == "..")

/-- Whether a path leads to a directory that is always there. -/
def isDirectoryPath (path : String) : Bool := (partsBelow path).isEmpty

/-- Whether a path names a file of the working directory itself. -/
def isLocalPath (path : String) : Bool :=
  (rootOf path).isEmpty && (pathParts path).length == 1 && !isDirectoryPath path

/-- Why a file cannot be read or written. -/
inductive FileError where
  | notFound
  | notADirectory
  | isADirectory
  | nameTooLong
deriving DecidableEq

def FileError.text : FileError → String
  | notFound => "[Errno 2] No such file or directory"
  | notADirectory => "[Errno 20] Not a directory"
  | isADirectory => "[Errno 21] Is a directory"
  | nameTooLong => "[Errno 36] File name too long"

/-- The kind of crash an error in writing ends in. -/
def FileError.crash : FileError → String
  | notFound => "FileNotFoundError"
  | notADirectory => "NotADirectoryError"
  | isADirectory => "IsADirectoryError"
  | nameTooLong => "OSError"

namespace Files

/-- Whether a proper front part of a path is a file. -/
def passesThroughFile (files : Files) (path : String) : Bool :=
  files.any fun e => (shortPath path).startsWith (shortPath e.1 ++ "/")

/-- Why a path leads to no file, as far as the path itself tells. -/
def pathError? (files : Files) (path : String) : Option FileError :=
  if maxPathBytes < (shortPath path).utf8ByteSize then some .nameTooLong
  else if isDirectoryPath path then some .isADirectory
  else if files.passesThroughFile path then some .notADirectory
  else if (partsBelow path).head?.any (maxPartBytes < ·.utf8ByteSize) then some .nameTooLong
  else none

def read (files : Files) (path : String) : Except FileError String :=
  match files.find? fun e => shortPath e.1 == shortPath path with
  | some e => .ok (String.ofList (Text.unifyLineBreaks e.2.toList))
  | none => .error ((files.pathError? path).getD .notFound)

/-- Why a file cannot be written, if it cannot. -/
def writeError? (files : Files) (path : String) : Option FileError :=
  match files.pathError? path with
  | some e => some e
  | none => if 1 < (partsBelow path).length then some .notFound else none

end Files

end Cli

end FormRules
