import ChordSymbols.Text.Quoted

/-!
# Paths and files

A path is a root, if it has one, and the names after it; empty names and single
dots are dropped when it is read. Joined to another path, one with a root stands
alone. A disk holds folders and files by their place, the names on the way from
the root. A file is written only into a folder that exists, and nothing changes
when it is not written. A folder can be added together with those around it; the
ones that were added stay when the next cannot be.
-/

namespace ChordSymbols

/-- The slashes in front are none, one, or exactly two. -/
structure Path where
  slashes : Nat
  names : List Text
deriving DecidableEq, Repr

namespace Path

def ofText (t : Text) : Path :=
  let slashes := (t.takeWhile (· = '/')).length
  ⟨if 2 < slashes then 1 else slashes, (pieces '/' t).filter fun n => n ≠ [] ∧ n ≠ ['.']⟩

def join (p q : Path) : Path :=
  if q.slashes = 0 then ⟨p.slashes, p.names ++ q.names⟩ else q

def text (p : Path) : Text :=
  if p.slashes = 0 ∧ p.names = [] then ['.']
  else List.replicate p.slashes '/' ++ ['/'].intercalate p.names

end Path

/-- The names from the root to a folder or a file. -/
abbrev Place := List Text

namespace Path

/-- The folder that the names of a path are followed from. -/
def origin (here : Place) (p : Path) : Place :=
  if p.slashes = 0 then here else []

/-- A path up to some of its names. -/
def upTo (p : Path) (k : Nat) : Path := ⟨p.slashes, p.names.take k⟩

end Path

structure Disk where
  here : Place := []
  folders : List Place := []
  files : List (Place × List UInt8) := []
deriving DecidableEq, Repr

inductive DiskError where
  | zeroByte
  | missing (path : Text)
  | inTheWay (path : Text)
  | notFolder (path : Text)
  | isFolder (path : Text)
  | nameTooLong (path : Text)
deriving DecidableEq, Repr

def DiskError.message : DiskError → String
  | .zeroByte => "embedded null byte"
  | .missing p => "[Errno 2] No such file or directory: " ++ quoted p
  | .inTheWay p => "[Errno 17] File exists: " ++ quoted p
  | .notFolder p => "[Errno 20] Not a directory: " ++ quoted p
  | .isFolder p => "[Errno 21] Is a directory: " ++ quoted p
  | .nameTooLong p => "[Errno 36] File name too long: " ++ quoted p

def utf8Length (t : Text) : Nat := (String.ofList t).utf8ByteSize

def longestName : Nat := 255
def longestPath : Nat := 4095

namespace Disk

/-- The root is a folder. -/
def isFolder (d : Disk) (p : Place) : Bool := p.isEmpty || d.folders.contains p

def isFile (d : Disk) (p : Place) : Bool := d.files.any (·.1 = p)

def file? (d : Disk) (p : Place) : Option (List UInt8) := d.files.lookup p

/-- Follows names from a folder through folders. -/
def follow (d : Disk) (whole : Text) : Place → List Text → Except DiskError Place
  | place, [] => .ok place
  | place, n :: ns =>
    if n = ['.', '.'] then follow d whole place.dropLast ns
    else if longestName < utf8Length n then .error (.nameTooLong whole)
    else
      let next := place ++ [n]
      if d.isFolder next then follow d whole next ns
      else if d.isFile next then .error (.notFolder whole)
      else .error (.missing whole)

/-- The folder that the last name of a path is looked up in, and that name, if there is one. -/
def approach (d : Disk) (p : Path) : Except DiskError (Place × Option Text) :=
  let whole := p.text
  if whole.contains (Char.ofNat 0) then .error .zeroByte
  else if longestPath < utf8Length whole then .error (.nameTooLong whole)
  else return (← d.follow whole (p.origin d.here) p.names.dropLast, p.names.getLast?)

/-- The place that a path to a file stands for. -/
def locate (d : Disk) (p : Path) : Except DiskError Place := do
  match ← d.approach p with
  | (_, none) => .error (.isFolder p.text)
  | (around, some name) =>
    if name = ['.', '.'] ∨ d.isFolder (around ++ [name]) then .error (.isFolder p.text)
    else if longestName < utf8Length name then .error (.nameTooLong p.text)
    else return around ++ [name]

/-- Replaces a file or adds it. -/
def put (d : Disk) (p : Place) (bytes : List UInt8) : Disk :=
  { d with files := (d.files.filter (·.1 ≠ p)) ++ [(p, bytes)] }

theorem file?_put (d : Disk) (p q : Place) (bytes : List UInt8) :
    (d.put p bytes).file? q = if q = p then some bytes else d.file? q := by
  have kept : ∀ files : List (Place × List UInt8),
      (files.filter (·.1 ≠ p) ++ [(p, bytes)]).lookup q =
        if q = p then some bytes else files.lookup q := by
    intro files
    induction files with
    | nil =>
      by_cases same : q = p
      · simp [same]
      · have apart : (q == p) = false := by simpa using same
        simp [List.lookup_cons, apart, same]
    | cons f fs ih =>
      obtain ⟨r, content⟩ := f
      by_cases hr : r = p
      · subst hr
        by_cases same : q = r
        · simpa [same] using ih
        · have apart : (q == r) = false := by simpa using same
          simpa [List.lookup_cons, apart, same] using ih
      · by_cases found : q = r
        · subst found
          simp [hr]
        · have apart : (q == r) = false := by simpa using found
          simpa [hr, List.lookup_cons, apart] using ih
  exact kept d.files

/-- Adds the folder that a path ends in, if it is not there. Those around it have to be. -/
def addFolder (d : Disk) (p : Path) : Except DiskError Disk := do
  match ← d.approach p with
  | (_, none) => return d
  | (around, some name) =>
    if name = ['.', '.'] then return d
    else if longestName < utf8Length name then .error (.nameTooLong p.text)
    else if d.isFolder (around ++ [name]) then return d
    else if d.isFile (around ++ [name]) then .error (.inTheWay p.text)
    else return { d with folders := d.folders ++ [around ++ [name]] }

/-- What came of a change, and the disk after it. -/
def settle (d : Disk) : Except DiskError Disk → Except DiskError Unit × Disk
  | .ok changed => (.ok (), changed)
  | .error e => (.error e, d)

/-- Adds the folder that the first `k` names of a path lead to. If one around it is missing, that
is added first, and then this one is tried again. -/
def ensureUpTo (d : Disk) (p : Path) : Nat → Except DiskError Unit × Disk
  | 0 => d.settle (d.addFolder (p.upTo 0))
  | k + 1 =>
    match d.addFolder (p.upTo (k + 1)) with
    | .error (.missing _) =>
      match d.ensureUpTo p k with
      | (.ok (), d) => d.settle (d.addFolder (p.upTo (k + 1)))
      | failed => failed
    | tried => d.settle tried

/-- Adds the folder of a path, and those around it, where they are not there. -/
def ensureFolder (d : Disk) (p : Path) : Except DiskError Unit × Disk :=
  d.ensureUpTo p p.names.length

/-- The files below a folder by their paths, in order. -/
def filesBelow (d : Disk) (folder : Text) : List (Text × List UInt8) :=
  let path := Path.ofText folder
  match d.follow path.text (path.origin d.here) path.names with
  | .error _ => []
  | .ok place =>
    let found := d.files.filterMap fun (q, bytes) =>
      if place.isPrefixOf q then some ((path.join ⟨0, q.drop place.length⟩).text, bytes) else none
    found.mergeSort fun a b => !(List.lex b.1 a.1 fun x y => x.toNat < y.toNat)

end Disk

end ChordSymbols
