/-!
# Paths

The parts of a path stand between slashes; empty parts and single points do not count, and two
points lead to the place above.  A path that ends in a slash or a single point means a directory.
-/

set_option autoImplicit false

namespace CoinLedger.Path

/-- All parts of a path, also those that do not count. -/
def rawParts (path : String) : List String :=
  (path.toList.splitOn '/').map String.ofList

/-- Whether a part counts. -/
def counts (part : String) : Bool :=
  part ≠ "" && part ≠ "."

/-- The parts of a path that count. -/
def parts (path : String) : List String :=
  (rawParts path).filter counts

/-- Whether a path begins at the root. -/
def isAbsolute (path : String) : Bool :=
  path.toList.head? == some '/'

/-- The path that parts make up. -/
def ofParts (absolute : Bool) (parts : List String) : String :=
  (if absolute then "/" else "") ++ "/".intercalate parts

/-- The path without the parts that do not count. -/
def plain (path : String) : String :=
  ofParts (isAbsolute path) (parts path)

/-- Whether a path may mean a file: its end counts. -/
def mayBeFile (path : String) : Bool :=
  (rawParts path).getLast?.any counts

/-- Whether a path has a name at its end: a part that counts and does not lead up. -/
def hasName (path : String) : Bool :=
  (parts path).getLast?.any (· ≠ "..")

/-- The name without its ending, which begins at the last point that is not the first character. -/
def stem (name : String) : String :=
  let reversed := name.toList.reverse
  match reversed.dropWhile (· ≠ '.') with
  | _ :: first :: rest => String.ofList (first :: rest).reverse
  | _ => name

/-- The place above another one; `place` holds its parts, the last one first.  There is nothing
above the root. -/
def above (absolute : Bool) : List String → List String
  | [] => if absolute then [] else [".."]
  | ".." :: rest => ".." :: ".." :: rest
  | _ :: rest => rest

/-- The places that a walk along parts comes through, each as a path.  `place` holds the parts of
the present place, the last one first. -/
def placesAlong (absolute : Bool) : List String → List String → List String
  | _, [] => []
  | place, part :: rest =>
    let next := if part = ".." then above absolute place else part :: place
    ofParts absolute next.reverse :: placesAlong absolute next rest

end CoinLedger.Path
