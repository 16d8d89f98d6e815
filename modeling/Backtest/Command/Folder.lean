import Backtest.Fault
import Backtest.Record

/-!
# Paths and folders

The tidy form in which paths of scripts are shown, and a working directory with some files in it,
about whose surroundings nothing is known.
-/

namespace Backtest.Command

open Text

/-- A path without empty parts and parts that stand for the directory itself.  Of the slashes at its
front one is kept, or two if there are just two. -/
def tidyPath (path : String) : String :=
  let text := path.toList
  let parts := (pieces '/' text).filter fun part => !part.isEmpty && part != ['.']
  let inner := join "/" (parts.map String.ofList)
  match (text.takeWhile (· == '/')).length with
  | 0 => if inner.isEmpty then "." else inner
  | 2 => "//" ++ inner
  | _ => "/" ++ inner

/-- The files of a working directory by name. -/
abbrev Folder := Record String

namespace Folder

/-- Where a walk along a path has come to. -/
inductive Place where
  | inside
  | outside
  | file (text : String)

def longestName : Nat := 255

def longestPath : Nat := 4095

/-- The place that one part of a path leads to. -/
def step (folder : Folder) (place : Place) (part : String) : Except FileFlaw Place :=
  match place with
  | .file _ => .error .notDirectory
  | .inside =>
      if part = "" ∨ part = "." then .ok .inside
      else if part = ".." then .ok .outside
      else if longestName < part.utf8ByteSize then .error .nameTooLong
      else match folder.get? part with
        | some text => .ok (.file text)
        | none => .error .missing
  | .outside =>
      if part = "" ∨ part = "." ∨ part = ".." then .ok .outside
      else if longestName < part.utf8ByteSize then .error .nameTooLong
      else .error .missing

/-- The text of the file at a path. -/
def textAt (folder : Folder) (path : String) : Except FileFlaw String := do
  let start : Place := if path.toList.head? = some '/' then .outside else .inside
  if path.isEmpty then throw .missing
  if longestPath < path.utf8ByteSize then throw .nameTooLong
  let parts := (pieces '/' path.toList).map String.ofList
  match ← parts.foldlM folder.step start with
  | .file text => pure text
  | _ => throw .directory

end Folder

end Backtest.Command
