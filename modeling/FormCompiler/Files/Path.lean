import FormCompiler.Text.Segments

namespace FormCompiler

namespace Path

def parts (path : String) : List String := (Text.splitMarks '/' path.toList).map String.ofList

def isAbsolute (path : String) : Bool := path.startsWith "/"

def resolve (base path : String) : String :=
  if isAbsolute path || base == "" then path
  else if base.endsWith "/" then base ++ path
  else base ++ "/" ++ path

def names (path : String) : List String := (parts path).filter fun p => p != "" && p != "."

def isSilent (part : String) : Bool := part == "" || part == "."

def prefixes (first : String) : List String → List String
  | [] => [if first == "" then "/" else first]
  | part :: above =>
    if isSilent part then prefixes first above
    else "/".intercalate (first :: (part :: above).reverse) :: prefixes first above

def ancestors (path : String) : List String :=
  match parts path with
  | [] => []
  | first :: rest => prefixes first rest.reverse

def splitLast? (path : String) : Option (List String × String) :=
  match (parts path).reverse.dropWhile (· == "") with
  | [] => none
  | name :: above => some (above.reverse, name)

def fileName? (path : String) : Option String := (names path).getLast?.filter (· != "..")

def nameExtension? (name : String) : Option String :=
  let tail := name.toList.reverse.takeWhile (· != '.')
  match name.toList.reverse.dropWhile (· != '.') with
  | _ :: _ :: _ => some (String.ofList tail.reverse)
  | _ => none

def extension (path : String) : String := ((fileName? path).bind nameExtension?).getD ""

end Path

end FormCompiler
