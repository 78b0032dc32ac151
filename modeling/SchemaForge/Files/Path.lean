/-!
Paths as text. Names are separated by slashes; an empty name, and a dot that is not the first name, count for nothing.
-/

namespace SchemaForge

namespace Path

def isAbsolute (path : String) : Bool := path.toList.head? = some '/'

def endsInSlash (path : String) : Bool := path.toList.getLast? = some '/'

/-- The path without slashes at its end. -/
def trimSlashes (path : String) : String := String.ofList (path.toList.reverse.dropWhile (· = '/')).reverse

/-- A path below a directory. An absolute one stands alone. -/
def join (directory path : String) : String :=
  if isAbsolute path ∨ directory.isEmpty then path
  else if endsInSlash directory then directory ++ path
  else directory ++ "/" ++ path

/-- Removes names that count for nothing from the end of a path that is written backwards. -/
def dropIdle : List Char → List Char
  | '/' :: rest => dropIdle rest
  | '.' :: '/' :: rest => dropIdle rest
  | ['.'] => []
  | rest => rest

/-- Removes the last name of a path that is written backwards. -/
def dropName (cs : List Char) : List Char := dropIdle ((cs.dropWhile (· ≠ '/')).drop 1)

/-- What a path starts with before its first name: a slash, or a dot that stands for itself. -/
def head (cs : List Char) : List Char :=
  match cs with
  | '/' :: _ => ['/']
  | ['.'] => ['.']
  | '.' :: '/' :: _ => ['.']
  | _ => []

/-- The path without its last name; the root and the empty path have none. -/
def parent? (path : String) : Option String :=
  let cs := path.toList
  let start := head cs
  match dropIdle (cs.drop start.length).reverse with
  | [] => if start = ['.'] then some "" else none
  | names => some (String.ofList (start ++ (dropName names).reverse))

/-- The names of a path, the idle ones too. -/
def names (path : String) : List String :=
  go [] path.toList
where
  go (name : List Char) : List Char → List String
    | [] => [String.ofList name.reverse]
    | c :: cs => if c = '/' then String.ofList name.reverse :: go [] cs else go (c :: name) cs

/-- What a path starts with and its names, the idle ones left out. -/
def parts (path : String) : List String :=
  let start := head path.toList
  String.ofList start :: (names (String.ofList (path.toList.drop start.length))).filter fun n => n ≠ "" && n ≠ "."

/-- The paths have the same parts. -/
def same (a b : String) : Bool := parts a = parts b

theorem length_dropIdle_le (cs : List Char) : (dropIdle cs).length ≤ cs.length := by
  fun_induction dropIdle cs <;> simp_all <;> omega

theorem length_dropName_lt {cs : List Char} (h : cs ≠ []) : (dropName cs).length < cs.length := by
  have h1 := length_dropIdle_le ((cs.dropWhile (· ≠ '/')).drop 1)
  have h2 := (List.dropWhile_sublist (l := cs) (· ≠ '/')).length_le
  have h3 := List.length_pos_iff.mpr h
  rw [List.length_drop] at h1
  simp only [dropName]
  omega

theorem length_head_le (cs : List Char) : (head cs).length ≤ cs.length := by
  unfold head
  split <;> simp

/-- A parent is shorter than its path. -/
theorem length_parent?_lt {path parent : String} (h : parent? path = some parent) :
    parent.length < path.length := by
  simp only [parent?] at h
  have hstart := length_head_le path.toList
  have hidle := length_dropIdle_le (path.toList.drop (head path.toList).length).reverse
  rw [List.length_reverse, List.length_drop] at hidle
  rw [← String.length_toList, ← String.length_toList]
  split at h
  · rename_i hnil
    split at h
    · rename_i hdot
      cases h
      rw [hdot] at hstart
      simp at hstart ⊢
      omega
    · cases h
  · rename_i names hne
    cases h
    have hlt : (dropName (dropIdle (path.toList.drop (head path.toList).length).reverse)).length < _ :=
      length_dropName_lt hne
    simp only [String.toList_ofList, List.length_append, List.length_reverse]
    omega

/-- The path and the paths that hold it, innermost first. -/
def ancestors (path : String) : List String :=
  match _h : parent? path with
  | none => [path]
  | some parent => path :: ancestors parent
termination_by path.length
decreasing_by exact length_parent?_lt _h

end Path

end SchemaForge
