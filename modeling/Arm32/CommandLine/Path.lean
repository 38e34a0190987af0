import Arm32.Image
import Arm32.Text.Quoted

namespace Arm32.CommandLine

/-! Paths of image files. Empty parts and parts of one dot do not count. -/

structure Path where
  /-- The slashes at the beginning: none, one, or exactly two. -/
  root : String
  parts : List String
deriving DecidableEq, Repr

namespace Path

def splitSlashes (text : List Char) : List (List Char) :=
  text.foldr (fun character pieces =>
    match pieces with
    | piece :: rest =>
        if character == '/' then [] :: piece :: rest else (character :: piece) :: rest
    | [] => [[character]]) [[]]

def rootOf (text : List Char) : String :=
  match text.takeWhile (· == '/') with
  | [] => ""
  | ['/', '/'] => "//"
  | _ => "/"

def ofText (text : String) : Path where
  root := rootOf text.toList
  parts := ((splitSlashes text.toList).map String.ofList).filter fun part =>
    part != "" && part != "."

/-- The text of a path; without root and parts it is the current directory. -/
def text (path : Path) : String :=
  if path.root == "" && path.parts.isEmpty then "."
  else path.root ++ "/".intercalate path.parts

def name (path : Path) : String :=
  path.parts.getLast?.getD ""

end Path

inductive ReadFailure where
  | missing
  | notDirectory
  | isDirectory
  | other (description : String)
deriving DecidableEq, Repr

namespace ReadFailure

def text : ReadFailure → String
  | .missing => "[Errno 2] No such file or directory"
  | .notDirectory => "[Errno 20] Not a directory"
  | .isDirectory => "[Errno 21] Is a directory"
  | .other description => description

end ReadFailure

/-- A directory that holds files and no directories. -/
abbrev Directory := List (String × Image)

namespace Directory

/-- Reads a file as seen from the directory. The directories above it are there;
nothing else outside of it is. -/
def read (directory : Directory) (path : Path) : Except ReadFailure Image :=
  if path.parts.all (· == "..") then .error .isDirectory
  else
    match path.root, path.parts with
    | "", name :: inner =>
        match directory.lookup name with
        | some image => if inner.isEmpty then .ok image else .error .notDirectory
        | none => .error .missing
    | _, _ => .error .missing

end Directory

end Arm32.CommandLine
