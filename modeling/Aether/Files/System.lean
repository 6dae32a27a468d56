import Aether.Rust.Text

/-! A file system as a program sees it.

A path is its list of components, as `std::path` reads it on Unix, and a file system says
what lies at each path. Every operation says what it changes, and little lemmas say that it
changes nothing else. -/
namespace Aether.Files

/-! ### Paths -/

/-- `std::path::Component`. -/
inductive Component where
  | rootDir
  | curDir
  | parentDir
  | normal (name : String)
  deriving DecidableEq, Repr

abbrev Path := List Component

namespace Path

/-- A part between separators; empty ones and dots say nothing. -/
def component : String → Option Component
  | "" => none
  | "." => none
  | ".." => some .parentDir
  | name => some (.normal name)

/-- `Path::new`, by its components. -/
def ofText (text : String) : Path :=
  let parts := Rust.split '/' text
  let rest := parts.filterMap component
  if Rust.startsWith "/" text then .rootDir :: rest
  else if parts.head? = some "." then .curDir :: rest
  else rest

/-- `Path::file_name`. -/
def fileName (path : Path) : Option String :=
  match path.getLast? with
  | some (.normal name) => some name
  | _ => none

/-- `Path::parent`. -/
def parent (path : Path) : Option Path :=
  match path.getLast? with
  | none => none
  | some .rootDir => none
  | some _ => some path.dropLast

/-- `PathBuf::set_file_name`, for a name that is one component. -/
def setFileName (name : String) (path : Path) : Path :=
  (if path.fileName.isSome then path.dropLast else path) ++ [.normal name]

def showComponent : Component → String
  | .rootDir => ""
  | .curDir => "."
  | .parentDir => ".."
  | .normal name => name

/-- `Path::display`, with single separators. -/
def display (path : Path) : String :=
  if path = [.rootDir] then "/" else String.intercalate "/" (path.map showComponent)

theorem length_setFileName (name : String) (path : Path) : path.length ≤ (path.setFileName name).length := by
  rw [setFileName, List.length_append]
  split
  · rw [List.length_dropLast]
    show path.length ≤ path.length - 1 + 1
    omega
  · exact Nat.le_add_right _ _

theorem length_parent {path dir : Path} (h : path.parent = some dir) : dir.length < path.length := by
  rw [parent] at h
  cases hlast : path.getLast? with
  | none =>
    rw [hlast] at h
    cases h
  | some last =>
    have hne : path ≠ [] := by
      rintro rfl
      cases hlast
    have hpos := List.length_pos_iff.mpr hne
    have hdir : dir = path.dropLast := by
      rw [hlast] at h
      cases last with
      | rootDir => cases h
      | curDir | parentDir | normal name => exact (Option.some.inj h).symm
    rw [hdir, List.length_dropLast]
    omega

/-- Another name is another path. -/
theorem setFileName_ne {name : String} {path : Path} (h : path.fileName ≠ some name) : path.setFileName name ≠ path := by
  intro hsame
  apply h
  rw [fileName, ← hsame, setFileName, List.getLast?_append]
  rfl

end Path

/-! ### What lies at a path -/

inductive Node where
  | directory
  | file (content : List UInt8)
  deriving DecidableEq, Repr

abbrev FileSystem := Path → Option Node

namespace FileSystem
variable (fs : FileSystem)

/-- A file with a content, made or overwritten. -/
def write (path : Path) (content : List UInt8) : FileSystem := Function.update fs path (some (.file content))

/-- `remove_file`, where there is a file. -/
def removeFile (path : Path) : FileSystem :=
  match fs path with
  | some (.file _) => Function.update fs path none
  | _ => fs

/-- `rename`: in one step the target is what the source was, and the source is gone. -/
def rename (source target : Path) : FileSystem := Function.update (Function.update fs target (fs source)) source none

/-- `create_dir_all`: every path on the way to a directory that has nothing at it becomes one. -/
def createDirAll (dir : Path) : FileSystem := fun path =>
  match fs path with
  | some node => some node
  | none => if path <+: dir ∧ path ≠ [] then some .directory else none

variable {fs}

@[simp] theorem write_self (path : Path) (content : List UInt8) : fs.write path content path = some (.file content) :=
  Function.update_self ..

theorem write_of_ne {path other : Path} (h : other ≠ path) (content : List UInt8) :
    fs.write path content other = fs other := Function.update_of_ne h ..

theorem removeFile_of_ne {path other : Path} (h : other ≠ path) : fs.removeFile path other = fs other := by
  rw [removeFile]
  cases fs path with
  | none => rfl
  | some node =>
    cases node with
    | directory => rfl
    | file content => exact Function.update_of_ne h ..

/-- Where there was a file there is nothing. -/
theorem removeFile_file {path : Path} {content : List UInt8} (h : fs path = some (.file content)) :
    fs.removeFile path path = none := by
  rw [removeFile, h]
  exact Function.update_self ..

theorem rename_target {source target : Path} (h : source ≠ target) : fs.rename source target target = fs source := by
  rw [rename, Function.update_of_ne h.symm, Function.update_self]

/-- Nothing is made beside or below a directory. -/
theorem createDirAll_of_long {dir path : Path} (h : dir.length < path.length) : fs.createDirAll dir path = fs path := by
  rw [createDirAll]
  cases hpath : fs path with
  | some node => rfl
  | none =>
    apply if_neg
    rintro ⟨hunder, -⟩
    have := hunder.length_le
    omega

end FileSystem

end Aether.Files
