/-
This file takes the paths of files apart.  Paths are texts with slashes between
their parts.
-/

namespace HorizonPlanner.CommandLine.Path

/-- Whether a text consists of slashes only. -/
def isSlashes (text : List Char) : Bool := text.all (· == '/')

/-- A text without the slashes at its end, unless there is nothing else in it. -/
def withoutEndSlashes (text : List Char) : List Char :=
  if isSlashes text then text else (text.reverse.dropWhile (· == '/')).reverse

/-- The part of a path before its last slash and the part after it. -/
def split (path : List Char) : List Char × List Char :=
  let after := (path.reverse.takeWhile (· != '/')).reverse
  (withoutEndSlashes (path.take (path.length - after.length)), after)

/-- The path of the folder above a path, and the name in it; a slash at the end does not count. -/
def parent (path : List Char) : List Char × List Char :=
  match split path with
  | (above, []) => split above
  | parts => parts

/-- The name of the file at the end of a path. -/
def fileName (path : String) : String := String.ofList (split path.toList).2

/-- A name without its last extension.  Dots at the front of a name do not start one. -/
def stem (name : String) : String :=
  let characters := name.toList
  let front := characters.takeWhile (· == '.')
  let body := characters.drop front.length
  if body.contains '.' then
    String.ofList (front ++ ((body.reverse.dropWhile (· != '.')).drop 1).reverse)
  else name

/-- A name in a folder. -/
def join (folder name : String) : String :=
  if name.startsWith "/" then name
  else if folder == "" || folder.endsWith "/" then folder ++ name
  else folder ++ "/" ++ name

end HorizonPlanner.CommandLine.Path
