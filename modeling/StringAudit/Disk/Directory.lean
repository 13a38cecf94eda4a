/-!
# Directories

A directory is its entries in the ascending order of their names: files, symbolic links and further
directories.  The three kinds of entry are constructors of one type, so that a recursion over a directory
reaches everything below it.

`toList` is the view of a directory as a list of names and entries; `find?`, `insert` and `erase` are
said through it.  `at?` and `modify` go down a chain of names without following links.
-/

namespace StringAudit

/-- A file: its bytes and its permission bits. -/
structure File where
  bytes : List UInt8
  mode : Nat := 0o644
  deriving DecidableEq, Repr

/-- The entries of a directory. -/
inductive Directory
  | empty
  | file (name : String) (contents : File) (rest : Directory)
  | link (name : String) (target : String) (rest : Directory)
  | folder (name : String) (inner rest : Directory)
  deriving DecidableEq, Repr

/-- What stands under a name. -/
inductive Entry
  | file (contents : File)
  | link (target : String)
  | folder (inner : Directory)
  deriving DecidableEq, Repr

namespace Directory

instance : Inhabited Directory :=
  ⟨empty⟩

/-- A directory with one more entry in front. -/
def cons (name : String) : Entry → Directory → Directory
  | .file contents, rest => file name contents rest
  | .link target, rest => link name target rest
  | .folder inner, rest => folder name inner rest

/-- The entries with their names. -/
def toList : Directory → List (String × Entry)
  | empty => []
  | file name contents rest => (name, .file contents) :: rest.toList
  | link name target rest => (name, .link target) :: rest.toList
  | folder name inner rest => (name, .folder inner) :: rest.toList

/-- The directory with the given entries. -/
def ofList : List (String × Entry) → Directory
  | [] => empty
  | (name, entry) :: rest => cons name entry (ofList rest)

@[simp]
theorem toList_cons (name : String) (entry : Entry) (rest : Directory) :
    (cons name entry rest).toList = (name, entry) :: rest.toList := by
  cases entry <;> rfl

@[simp]
theorem toList_ofList (entries : List (String × Entry)) : (ofList entries).toList = entries := by
  induction entries with
  | nil => rfl
  | cons entry rest ih => simp [ofList, ih]

@[simp]
theorem ofList_toList (d : Directory) : ofList d.toList = d := by
  induction d with
  | empty => rfl
  | file _ _ _ ih => simp [toList, ofList, cons, ih]
  | link _ _ _ ih => simp [toList, ofList, cons, ih]
  | folder _ _ _ _ ih => simp [toList, ofList, cons, ih]

/-- Put an entry at its place among entries in ascending order, over an older one of its name. -/
def insertEntry (name : String) (entry : Entry) : List (String × Entry) → List (String × Entry)
  | [] => [(name, entry)]
  | older :: rest =>
      if name < older.1 then (name, entry) :: older :: rest
      else if name = older.1 then (name, entry) :: rest
      else older :: insertEntry name entry rest

/-- The entry under a name. -/
def find? (d : Directory) (name : String) : Option Entry :=
  d.toList.lookup name

/-- The directory with an entry under a name. -/
def insert (d : Directory) (name : String) (entry : Entry) : Directory :=
  ofList (insertEntry name entry d.toList)

/-- The directory without the entry under a name. -/
def erase (d : Directory) (name : String) : Directory :=
  ofList (d.toList.filter (·.1 ≠ name))

/-- What stands at the end of a chain of names. -/
def at? : Directory → List String → Option Entry
  | d, [] => some (.folder d)
  | d, name :: rest =>
      match d.find? name with
      | some (.folder inner) => inner.at? rest
      | some entry => if rest = [] then some entry else none
      | none => none

/-- Change the directory at the end of a chain of names; nothing changes if there is none. -/
def modify : Directory → List String → (Directory → Directory) → Directory
  | d, [], change => change d
  | d, name :: rest, change =>
      match d.find? name with
      | some (.folder inner) => d.insert name (.folder (inner.modify rest change))
      | _ => d

end Directory

end StringAudit
