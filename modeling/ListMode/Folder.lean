/-!
# Folders of files

Where dumps, settings and exported spectra lie: files and folders, as a value.

A *path* says how to go, a *place* is where something lies.  Both are lists of
names.  Places are what the entries of a folder are kept by: the names that lead
there from the folder at hand, preceded by two dots for each step out of it, or
by a slash when they start at the top.  A path may go back and forth: an empty
name and a single dot lead nowhere, and two dots lead back.  It is followed one
name after the other (`Folder.locate`), and every place on the way has to be a
folder that is there, also when the path leads out of it again.
-/

namespace ListMode

/-- What lies under a name. -/
inductive FolderEntry where
  /-- A file with its contents. -/
  | file (contents : ByteArray)
  /-- A folder. -/
  | folder
  /-- The null device, which is empty whatever is written to it. -/
  | nullDevice

/-- The two are the same. -/
def FolderEntry.same : FolderEntry → FolderEntry → Bool
  | .file a, .file b => a == b
  | .folder, .folder => true
  | .nullDevice, .nullDevice => true
  | _, _ => false

/-- Why a file or a folder cannot be used. -/
inductive FolderFault where
  /-- Nothing lies under the path. -/
  | notFound
  /-- A folder lies under the path, where a file is needed. -/
  | isFolder
  /-- A file lies on the path, where a folder is needed. -/
  | isFile
  /-- A device lies under the path, where a file with a size is needed. -/
  | isDevice
  /-- A name on the path, or the path, is longer than a name can be. -/
  | tooLong
  /-- A name on the path has a character that no name has. -/
  | noName
deriving DecidableEq, Repr

/-- The words for a folder fault. -/
def FolderFault.message : FolderFault → String
  | .notFound => "I/O error: entity not found"
  | .isFolder => "I/O error: is a directory"
  | .isFile => "I/O error: not a directory"
  | .isDevice => "I/O error: no such device"
  | .tooLong => "I/O error: file name too long"
  | .noName => "I/O error: file name contained an unexpected NUL byte"

/-- A way to go, first name first. -/
abbrev FolderPath := List String

/-- Where something lies, outermost name first. -/
abbrev Place := List String

/-- Files and folders by place. -/
structure Folder where
  /-- What lies where, last written first. -/
  entries : List (Place × FolderEntry) := []
deriving Inhabited

namespace Folder

/-! ## Paths -/

/-- The path that a text says from a folder on.  A folder that ends in a slash
needs no other. -/
def within (folder : FolderPath) (text : String) : FolderPath :=
  let names := (text.toList.splitOn '/').map String.ofList
  if text.startsWith "/" then "/" :: names.tail
  else if folder.getLast? = some "" then folder.dropLast ++ names
  else folder ++ names

/-- The path that a text says. -/
def path (text : String) : FolderPath := within [] text

/-- The name leads nowhere. -/
def isStill (name : String) : Bool := name = "" || name = "."

/-- The last name of a path that leads somewhere. -/
def fileName (p : FolderPath) : String := ((p.reverse.dropWhile isStill).head?).getD ""

/-- What stands behind the last dot of the file name in the text of a path, when
something stands before it. -/
def extension? (text : String) : Option String :=
  match ((fileName (path text)).splitOn ".").reverse with
  | ext :: before => if before.isEmpty ∨ before = [""] then none else some ext
  | [] => none

/-- The most bytes in a name. -/
def nameLimit : Nat := 255

/-- The text of a path or a place. -/
def text : List String → String
  | "/" :: rest => "/" ++ "/".intercalate rest
  | names => "/".intercalate names

/-- The most bytes in the text of a path. -/
def pathLimit : Nat := 4095

/-- Why no path of the kind can be followed anywhere. -/
def unusable? (p : FolderPath) : Option FolderFault :=
  if p.any (·.toList.contains '\x00') then some .noName
  else if pathLimit < (text p).utf8ByteSize then some .tooLong
  else none

/-! ## Places -/

/-- A place one step back. -/
def back (p : Place) : Place :=
  match p.getLast? with
  | none | some ".." => p ++ [".."]
  | some "/" => p
  | some _ => p.dropLast

/-- The place that a name leads to from a folder. -/
def follow (p : Place) (name : String) : Except FolderFault Place :=
  if isStill name then .ok p
  else if name = ".." then .ok (back p)
  else if name.utf8ByteSize ≤ nameLimit then .ok (p ++ [name])
  else .error .tooLong

/-- The place is not in the folder, or is the folder itself. -/
def leadsOut (p : Place) : Bool :=
  match p with
  | [] | ".." :: _ | "/" :: _ => true
  | _ => false

/-- The folder itself or one that it lies in has the place. -/
def isAncestor (p : Place) : Bool := p = ["/"] || p.all (· == "..")

/-- The place of the null device. -/
def nullPlace : Place := ["/", "dev", "null"]

/-- What lies at a place.  The folder itself and those it lies in are there, and
so are the null device and its folder. -/
def find? (f : Folder) (p : Place) : Option FolderEntry :=
  if isAncestor p ∨ p = nullPlace.dropLast then some .folder
  else if p = nullPlace then some .nullDevice
  else f.entries.lookup p

/-- Checks that a folder lies at a place. -/
def enter (f : Folder) (p : Place) : Except FolderFault Unit :=
  match f.find? p with
  | some .folder => .ok ()
  | some _ => .error .isFile
  | none => .error .notFound

/-- The place a path leads to from another one.  Something may lie there or not,
but folders lie at all places on the way. -/
def locateFrom (f : Folder) (at' : Place) : FolderPath → Except FolderFault Place
  | [] => .ok at'
  | name :: rest => do
    f.enter at'
    locateFrom f (← follow at' name) rest

/-- The place a path leads to. -/
def locate (f : Folder) (p : FolderPath) : Except FolderFault Place :=
  match unusable? p with
  | some fault => .error fault
  | none => f.locateFrom [] p

/-! ## Reading and writing -/

/-- The contents of a file. -/
def read (f : Folder) (p : FolderPath) : Except FolderFault ByteArray := do
  match f.find? (← f.locate p) with
  | some (.file contents) => .ok contents
  | some .nullDevice => .ok .empty
  | some .folder => .error .isFolder
  | none => .error .notFound

/-- The contents of a file that has a size, which a device has not. -/
def readSized (f : Folder) (p : FolderPath) : Except FolderFault ByteArray := do
  match f.find? (← f.locate p) with
  | some .nullDevice => .error .isDevice
  | _ => f.read p

/-- The folder with something put at a place. -/
def put (f : Folder) (p : Place) (e : FolderEntry) : Folder :=
  ⟨(p, e) :: f.entries.filter (·.1 != p)⟩

/-- Writes a file into a folder that exists.  A path that ends in a slash or in
dots is that of a folder. -/
def write (f : Folder) (p : FolderPath) (contents : ByteArray) : Except FolderFault Folder :=
  match unusable? p with
  | some fault => .error fault
  | none => do
    let names := p.reverse.dropWhile (· = "")
    let dir ← f.locateFrom [] names.tail.reverse
    f.enter dir
    let name := names.headD ""
    if name = ".." ∨ isStill name ∨ names.length < p.length then .error .isFolder
    else
      let place ← follow dir name
      match f.find? place with
      | some .folder => .error .isFolder
      | some .nullDevice => .ok f
      | _ => .ok (f.put place (.file contents))

/-- Makes the folders on a path that do not exist, from a folder on. -/
def makeFrom (f : Folder) (at' : Place) : FolderPath → Except FolderFault Folder
  | [] => .ok f
  | name :: rest => do
    let place ← follow at' name
    match f.find? place with
    | some .folder => makeFrom f place rest
    | some _ => .error .isFile
    | none => makeFrom (f.put place .folder) place rest

/-- Makes the folders on a path that do not exist.  The last of them is not made
when a dot stands behind it. -/
def make (f : Folder) (p : FolderPath) : Except FolderFault Folder :=
  match unusable? p with
  | some fault => .error fault
  | none =>
    let names := (p.reverse.dropWhile isStill).reverse
    if (p.drop names.length).contains "." then do
      let f ← f.makeFrom [] names.dropLast
      f.enter (← f.locate names)
      return f
    else f.makeFrom [] names

/-- A folder with files, and the folders that they lie in. -/
def ofFiles (files : List (String × ByteArray)) : Folder :=
  files.foldl (fun f (name, contents) =>
    let p := path name
    let made := (f.make p.dropLast).toOption.getD f
    (made.write p contents).toOption.getD made) {}

/-- The files in the folder with their contents, in the order of their names. -/
def files (f : Folder) : List (String × ByteArray) :=
  let found := f.entries.filterMap fun (p, e) =>
    match e with
    | .file contents => if leadsOut p then none else some (text p, contents)
    | _ => none
  found.mergeSort fun a b => a.1 ≤ b.1

/-- What was put into a folder since it was another one. -/
def changesSince (f before : Folder) : List (Place × FolderEntry) :=
  (f.entries.filter fun (p, e) => !(before.find? p).any (FolderEntry.same e)).reverse

/-! ## Ways there and back -/

/-- A folder with a file in it. -/
private def withFile : Folder := ⟨[(["x"], .file ⟨#[1]⟩)]⟩

example : withFile.locate ["", ".", "y"] = .ok ["y"] := by rfl
example : withFile.locate ["no", "..", "x"] = .error .notFound := by rfl
example : withFile.locate ["x", ""] = .error .isFile := by rfl
example : withFile.read nullPlace = .ok .empty := by rfl
example : ({} : Folder).locate ["..", "y"] = .ok ["..", "y"] := by rfl

end Folder

end ListMode
