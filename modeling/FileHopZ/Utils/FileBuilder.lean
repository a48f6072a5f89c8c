import FileHopZ.FtpPacket
import FileHopZ.Library.FileSystem
import FileHopZ.Library.Map

/-! # `File_builder`

It builds the received tree in a staging directory inside the output directory, and
moves it to the output directory entry by entry.  Paths come from the network as bytes;
`std::filesystem::path` splits them, and the system reads them up to their first zero
byte.

`root_` and `staging_root_` are the locations that the program's paths lead to when the
staging directory is made.  A stream holds back what it has been given, and puts it on the
disk when it likes, at the latest when it is closed or destroyed.  Every call of the system
may fail; where and how is an argument, and so is what a stream holds back.
-/
namespace FileHopZ
open FileSystem

/-! ## Paths -/

namespace FsPath

def slash : UInt8 := 47
def dot : UInt8 := 46

/-- The pieces of a text between slashes. -/
def splitSlash : Bytes → List Bytes
  | [] => [[]]
  | c :: cs =>
      if c = slash then [] :: splitSlash cs
      else (c :: (splitSlash cs).headD []) :: (splitSlash cs).tail

/-- `path::is_absolute`. -/
def isAbsolute (text : Bytes) : Bool := text.head? = some slash

/-- The components of a relative path.  Slashes that follow each other count as one; one
at the end leaves an empty component. -/
def components (text : Bytes) : List Bytes :=
  if text = [] then []
  else (splitSlash text).dropLast.filter (· ≠ []) ++ [(splitSlash text).getLastD []]

/-- A component as the system takes it. -/
def part (component : Bytes) : Component Bytes :=
  if component = [] ∨ component = [dot] then .here
  else if component = [dot, dot] then .parent
  else .name component

/-- A path given by its components, up to the first zero byte. -/
def osParts : List Bytes → List (Component Bytes)
  | [] => []
  | c :: cs => if 0 ∈ c then [part (c.takeWhile (· ≠ 0))] else part c :: osParts cs

/-- `c_str`, as the system reads it. -/
def cText (text : Bytes) : Bytes := text.takeWhile (· ≠ 0)

end FsPath

instance : Target Bytes Bytes where
  path text :=
    { absolute := FsPath.isAbsolute text, parts := (FsPath.splitSlash text).map FsPath.part }

/-- What is on the disk. -/
abbrev Disk := FileTree Bytes Bytes UInt8

/-- `to_boost_error`, for an error that is set. -/
def toBoostError : Errno → Error
  | .noEntry => .generic .noSuchFileOrDirectory
  | .exists => .generic .fileExists
  | .notDirectory => .generic .notADirectory
  | .isDirectory => .generic .isADirectory
  | .loop => .generic .tooManySymbolicLinkLevels
  | .other value => .system value

/-- A call that fails with the error given, or is made. -/
def attempt {α : Type} (fault : Option Errno) (result : Except Errno α) : Except Errno α :=
  match fault with
  | some e => .error e
  | none => result

/-- `Open_file`: the file its stream writes to, and where in it; the bytes that the stream
holds back; and whether it has failed. -/
structure OpenFile where
  location : Location Bytes
  offset : Nat := 0
  pending : Bytes := []
  failed : Bool := false

namespace OpenFile

/-- The stream puts the first `count` of its bytes on the disk. -/
def put (count : Nat) (file : OpenFile) (disk : Disk) : OpenFile × Disk :=
  ({ file with
      offset := file.offset + (file.pending.take count).length
      pending := file.pending.drop count },
    disk.writeAt file.location file.offset (file.pending.take count))

/-- `ofstream::close`, and what the destructor does; when it fails, `fault` bytes have been
put on the disk. -/
def close (fault : Option Nat) (file : OpenFile) (disk : Disk) : OpenFile × Disk :=
  let closed := file.put (fault.getD file.pending.length) disk
  ({ closed.1 with pending := [], failed := file.failed || fault.isSome }, closed.2)

end OpenFile

/-- The fields of `File_builder`; `staging_root_` is empty when the constructor fails,
and nothing is done in `root_` then. -/
structure FileBuilder where
  root : Location Bytes := []
  stagingRoot : Option (Location Bytes) := none
  openFiles : Finmap fun _ : UInt32 => OpenFile := ∅

namespace FileBuilder

/-! ## The constructor -/

/-- The number of names that the constructor tries. -/
def maxAttempts : Nat := 100

/-- The loop of the constructor: `name` gives the candidates, `left` of which are left. -/
def makeStaging (root : List (Component Bytes)) (name : Nat → Bytes)
    (fault : Nat → Option Errno) (disk : Disk) : (left : Nat) → FileBuilder × Disk
  | 0 => ({}, disk)
  | left + 1 =>
      let i := maxAttempts - (left + 1)
      match attempt (fault i) (disk.mkdir [] (root ++ [.name (name i)])) with
      | .ok (disk, staging) =>
          ({ root := staging.dropLast, stagingRoot := some staging }, disk)
      | .error .exists => makeStaging root name fault disk left
      | .error _ => ({}, disk)

/-- `File_builder::File_builder`. -/
def construct (root : List (Component Bytes)) (name : Nat → Bytes) (directories : Fault)
    (fault : Nat → Option Errno) (disk : Disk) : FileBuilder × Disk :=
  match disk.createDirectories directories [] root with
  | (disk, some _) => ({}, disk)
  | (disk, none) => makeStaging root name fault disk maxAttempts

/-- A builder that has just made its staging directory. -/
structure Made (b : FileBuilder) (disk : Disk) (staging : Location Bytes) : Prop where
  ne : staging ≠ []
  there : disk.node staging = some .directory
  root : b.root = staging.dropLast
  openFiles : b.openFiles = ∅

theorem made_makeStaging {root : List (Component Bytes)} {name : Nat → Bytes}
    {fault : Nat → Option Errno} {disk : Disk} {left : Nat} {staging : Location Bytes}
    (h : (makeStaging root name fault disk left).1.stagingRoot = some staging) :
    Made (makeStaging root name fault disk left).1 (makeStaging root name fault disk left).2
      staging := by
  induction left with
  | zero => cases h
  | succ left ih =>
      simp only [makeStaging] at h ⊢
      split at h
      · rename_i hmade
        simp only [attempt] at hmade
        split at hmade
        · cases hmade
        · obtain rfl := Option.some.inj h
          obtain ⟨hne, hdir⟩ := FileTree.node_mkdir disk.root hmade
          exact ⟨hne, hdir, rfl, rfl⟩
      · exact ih h
      · cases h

/-- A builder with a staging directory has made it. -/
theorem made_construct {root : List (Component Bytes)} {name : Nat → Bytes} {directories : Fault}
    {fault : Nat → Option Errno} {disk : Disk} {staging : Location Bytes}
    (h : (construct root name directories fault disk).1.stagingRoot = some staging) :
    Made (construct root name directories fault disk).1
      (construct root name directories fault disk).2 staging := by
  unfold construct at h ⊢
  split at h
  · cases h
  · exact made_makeStaging h

/-! ## Building -/

/-- `is_forbidden_path_part`. -/
def isForbiddenPathPart (part : Bytes) : Bool := part = [FsPath.dot, FsPath.dot] || part.isEmpty

/-- `validate_relative_path`. -/
def validateRelativePath (path : Bytes) : Option Error :=
  if path.isEmpty || FsPath.isAbsolute path then some (.generic .invalidArgument)
  else if (FsPath.components path).any isForbiddenPathPart then some (.generic .invalidArgument)
  else none

/-- `staged_path` of a relative path, seen from the staging directory. -/
def stagedPath (path : Bytes) : List (Component Bytes) := FsPath.osParts (FsPath.components path)

/-- Its `parent_path`. -/
def stagedParent (path : Bytes) : List (Component Bytes) :=
  FsPath.osParts (FsPath.components path).dropLast

/-- The staging directory for a path, after the checks that all three start with. -/
def staging (path : Bytes) (b : FileBuilder) : Except Error (Location Bytes) :=
  match b.stagingRoot with
  | none => .error (.generic .noSuchFileOrDirectory)
  | some staging =>
      match validateRelativePath path with
      | some ec => .error ec
      | none => .ok staging

/-- `create_directory`. -/
def createDirectory (directories : Fault) (path : Bytes) (b : FileBuilder) (disk : Disk) :
    Disk × Option Error :=
  match b.staging path with
  | .error ec => (disk, some ec)
  | .ok staging =>
      let made := disk.createDirectories directories staging (stagedPath path)
      (made.1, made.2.map toBoostError)

/-- How the calls of `create_file` fail; `replaced` is the closing of the stream that has had
the id before. -/
structure FileFaults where
  directories : Fault := none
  isOpen : Bool := true
  replaced : Option Nat := none

/-- `create_file`.  The new stream is opened before the one that it replaces is destroyed. -/
def createFile (faults : FileFaults) (path : Bytes) (fileId : UInt32) (b : FileBuilder)
    (disk : Disk) : FileBuilder × Disk × Option Error :=
  match b.staging path with
  | .error ec => (b, disk, some ec)
  | .ok staging =>
      match disk.createDirectories faults.directories staging (stagedParent path) with
      | (disk, some e) => (b, disk, some (toBoostError e))
      | (disk, none) =>
          match disk.openTruncated staging (stagedPath path), faults.isOpen with
          | .ok (disk, location), true =>
              let file : OpenFile := { location := location }
              ({ b with openFiles := b.openFiles.insert fileId file },
                match b.openFiles.lookup fileId with
                | some replaced => (replaced.close faults.replaced disk).2
                | none => disk,
                none)
          | _, _ => (b, disk, some (.filehopz .fileOpenFailed))

/-- How the calls of `create_symlink` fail. -/
structure SymlinkFaults where
  directories : Fault := none
  status : Option Errno := none
  symlink : Option Errno := none

/-- `create_symlink`.  The system refuses an empty target. -/
def createSymlink (faults : SymlinkFaults) (path target : Bytes) (b : FileBuilder) (disk : Disk) :
    Disk × Option Error :=
  match b.staging path with
  | .error ec => (disk, some ec)
  | .ok staging =>
      match disk.createDirectories faults.directories staging (stagedParent path) with
      | (disk, some e) => (disk, some (toBoostError e))
      | (disk, none) =>
          match attempt faults.status (disk.status false staging (stagedPath path)) with
          | .error e => (disk, some (toBoostError e))
          | .ok (some _) => (disk, some (.generic .fileExists))
          | .ok none =>
              let text := FsPath.cText target
              match attempt faults.symlink (if text.isEmpty then .error .noEntry
                else disk.createSymlink text staging (stagedPath path)) with
              | .error e => (disk, some (toBoostError e))
              | .ok disk => (disk, none)

/-- `write`: the stream puts the first `count` of the bytes it has on the disk.  When it fails,
it is left with the bytes `fault`; one that has failed takes nothing. -/
def write (count : Nat) (fault : Option Bytes) (data : Bytes) (fileId : UInt32) (b : FileBuilder)
    (disk : Disk) : FileBuilder × Disk × Option Error :=
  match b.openFiles.lookup fileId with
  | none => (b, disk, some (.filehopz .unknownFileId))
  | some file =>
      if file.failed then (b, disk, some (.filehopz .fileWriteFailed))
      else
        let taken := OpenFile.put count { file with pending := file.pending ++ data } disk
        match fault with
        | some left =>
            let file : OpenFile := { taken.1 with pending := left, failed := true }
            ({ b with openFiles := b.openFiles.insert fileId file }, taken.2,
              some (.filehopz .fileWriteFailed))
        | none => ({ b with openFiles := b.openFiles.insert fileId taken.1 }, taken.2, none)

/-- `close_file`. -/
def closeFile (fault : Option Nat) (fileId : UInt32) (b : FileBuilder) (disk : Disk) :
    FileBuilder × Disk × Option Error :=
  match b.openFiles.lookup fileId with
  | none => (b, disk, some (.filehopz .unknownFileId))
  | some file =>
      let closed := file.close fault disk
      if closed.1.failed then
        ({ b with openFiles := b.openFiles.insert fileId closed.1 }, closed.2,
          some (.filehopz .fileWriteFailed))
      else ({ b with openFiles := b.openFiles.erase fileId }, closed.2, none)

/-- The streams in the order of their ids. -/
def byId : FiniteMap.Iteration UInt32 OpenFile :=
  .byRank UInt32.toNat fun _ _ => UInt32.toNat_inj.mp

/-- The order in which `unordered_map` gives the ids, and how the closing of each stream
fails. -/
structure CloseFaults where
  order : FiniteMap.Iteration UInt32 OpenFile := byId
  fault : UInt32 → Option Nat := fun _ => none

/-- `open_files_.clear()`, for the streams `ids`: each is closed by its destructor. -/
def clearStreams (fault : UInt32 → Option Nat) (openFiles : Finmap fun _ : UInt32 => OpenFile) :
    List UInt32 → Disk → Disk
  | [], disk => disk
  | id :: ids, disk =>
      match openFiles.lookup id with
      | none => clearStreams fault openFiles ids disk
      | some file => clearStreams fault openFiles ids (file.close (fault id) disk).2

/-- The loop of `close_all` over the streams `ids`.  Those after one that fails are closed by
`clear`. -/
def closeStreams (fault : UInt32 → Option Nat) (openFiles : Finmap fun _ : UInt32 => OpenFile) :
    List UInt32 → Disk → Disk × Option Error
  | [], disk => (disk, none)
  | id :: ids, disk =>
      match openFiles.lookup id with
      | none => closeStreams fault openFiles ids disk
      | some file =>
          let closed := file.close (fault id) disk
          if closed.1.failed then
            (clearStreams fault openFiles ids closed.2, some (.filehopz .fileWriteFailed))
          else closeStreams fault openFiles ids closed.2

/-- `close_all`. -/
def closeAll (faults : CloseFaults) (b : FileBuilder) (disk : Disk) :
    FileBuilder × Disk × Option Error :=
  let closed := closeStreams faults.fault b.openFiles (faults.order.keys b.openFiles) disk
  ({ b with openFiles := ∅ }, closed.1, closed.2)

/-- How `remove_all` fails. -/
abbrev RemoveFault := Option (List (Location Bytes) × Errno)

/-- `cleanup`. -/
def cleanup (close : CloseFaults) (fault : RemoveFault) (b : FileBuilder) (disk : Disk) :
    FileBuilder × Disk :=
  match b.stagingRoot with
  | none => (b, disk)
  | some staging =>
      match b.closeAll close disk with
      | (b, disk, _) => (b, (disk.removeAll fault staging).1)

/-! ## Committing -/

/-- How the calls for one entry fail. -/
structure EntryFaults where
  increment : Option Errno := none
  status : Option Errno := none
  directories : Fault := none
  destination : Option Errno := none
  rename : Option Errno := none

/-- The branch of `commit` for a directory. -/
def commitDirectory (root : Location Bytes) (path : List Bytes) (faults : EntryFaults)
    (disk : Disk) : Disk × Option Errno :=
  match attempt faults.destination (disk.status false root (FileTree.names path)) with
  | .error e => (disk, some e)
  | .ok (some (.file _)) => (disk, some .exists)
  | .ok (some (.symlink _)) => (disk, some .exists)
  | .ok _ => disk.createDirectories faults.directories root (FileTree.names path)

/-- The rest of the loop of `commit`, for a file or a link. -/
def commitLeaf (staging root : Location Bytes) (path : List Bytes) (faults : EntryFaults)
    (disk : Disk) : Disk × Option Errno :=
  match disk.createDirectories faults.directories root (FileTree.names path.dropLast) with
  | (disk, some e) => (disk, some e)
  | (disk, none) =>
      match attempt faults.destination (disk.status false root (FileTree.names path)) with
      | .error e => (disk, some e)
      | .ok (some .directory) => (disk, some .isDirectory)
      | .ok _ =>
          match attempt faults.rename
              (disk.rename staging (FileTree.names path) root (FileTree.names path)) with
          | .error e => (disk, some e)
          | .ok disk => (disk, none)

/-- `commit`, for the entry at `path` in the staging directory, which the iterator
reaches.  `final_path` of it is the same path seen from `root_`. -/
def commitEntry (staging root : Location Bytes) (path : List Bytes) (faults : EntryFaults)
    (disk : Disk) : Disk × Option Errno :=
  match faults.increment with
  | some e => (disk, some e)
  | none =>
      match attempt faults.status (disk.status false staging (FileTree.names path)) with
      | .error e => (disk, some e)
      | .ok none => (disk, some .noEntry)
      | .ok (some .directory) => commitDirectory root path faults disk
      | .ok (some _) => commitLeaf staging root path faults disk

/-- The loop of `commit` over what is left of the entries. -/
def commitEntries (staging root : Location Bytes) :
    List (List Bytes × EntryFaults) → Disk → Disk × Option Errno
  | [], disk => (disk, none)
  | (path, faults) :: rest, disk =>
      match commitEntry staging root path faults disk with
      | (disk, some e) => (disk, some e)
      | (disk, none) => commitEntries staging root rest disk

/-- How the calls of `commit` fail, and the entries that its iterator goes through. -/
structure CommitFaults where
  close : CloseFaults := {}
  iterator : Option Errno := none
  entries : List (List Bytes × EntryFaults) := []
  removeAll : RemoveFault := none

/-- `commit`. -/
def commit (faults : CommitFaults) (b : FileBuilder) (disk : Disk) :
    FileBuilder × Disk × Option Error :=
  match b.stagingRoot with
  | none => (b, disk, some (.generic .noSuchFileOrDirectory))
  | some staging =>
      match b.closeAll faults.close disk with
      | (b, disk, some ec) => (b, disk, some ec)
      | (b, disk, none) =>
          match faults.iterator with
          | some e => (b, disk, some (toBoostError e))
          | none =>
              match commitEntries staging b.root faults.entries disk with
              | (disk, some e) => (b, disk, some (toBoostError e))
              | (disk, none) =>
                  let removed := disk.removeAll faults.removeAll staging
                  (b, removed.1, removed.2.map toBoostError)

/-! ## Closing the streams -/

section Close
variable {fault : UInt32 → Option Nat} {openFiles : Finmap fun _ : UInt32 => OpenFile}
  {ids : List UInt32} {b : FileBuilder} {disk : Disk}

/-- Whether one of them fails or not, all are closed. -/
theorem closeStreams_disk :
    (closeStreams fault openFiles ids disk).1 = clearStreams fault openFiles ids disk := by
  induction ids generalizing disk with
  | nil => rfl
  | cons id ids ih =>
      rw [closeStreams, clearStreams]
      split
      · exact ih
      · dsimp only
        split_ifs
        · rfl
        · exact ih

/-- What the closing of each keeps, the closing of all keeps. -/
theorem clearStreams_keeps {P : Disk → Prop} (hclose : ∀ id file disk,
    openFiles.lookup id = some file → P disk → P (file.close (fault id) disk).2)
    (h : P disk) : P (clearStreams fault openFiles ids disk) := by
  induction ids generalizing disk with
  | nil => exact h
  | cons id ids ih =>
      rw [clearStreams]
      split
      · exact ih h
      · rename_i file hfile
        exact ih (hclose id file disk hfile h)

theorem closeAll_keeps {P : Disk → Prop} {faults : CloseFaults} (hclose : ∀ id file disk,
    b.openFiles.lookup id = some file → P disk → P (file.close (faults.fault id) disk).2)
    (h : P disk) : P (b.closeAll faults disk).2.1 := by
  show P (closeStreams faults.fault b.openFiles (faults.order.keys b.openFiles) disk).1
  rw [closeStreams_disk]
  exact clearStreams_keeps hclose h

/-- Only the contents of files change. -/
theorem rewritten_closeAll (faults : CloseFaults) :
    disk.Rewritten (b.closeAll faults disk).2.1 :=
  closeAll_keeps (fun _ _ _ _ h => h.trans (.writeAt _ _ _ _)) (.refl disk)

/-- Without open streams there is nothing to close. -/
theorem closeAll_of_empty (h : b.openFiles = ∅) (faults : CloseFaults) :
    b.closeAll faults disk = (b, disk, none) := by
  obtain ⟨root, stagingRoot, openFiles⟩ := b
  obtain rfl : openFiles = ∅ := h
  rw [closeAll]
  dsimp only
  rw [FiniteMap.Iteration.keys_empty]
  rfl

end Close

/-! ## What the calls keep -/

/-- Where the builder works stays what it is, and no directory goes. -/
structure Keeps (b : FileBuilder) (disk : Disk) (b' : FileBuilder) (disk' : Disk) : Prop where
  root : b'.root = b.root
  stagingRoot : b'.stagingRoot = b.stagingRoot
  directories : disk.KeepsDirectories disk'

section Keeps
variable (b : FileBuilder) (disk : Disk)

theorem keeps_same {b : FileBuilder} {disk disk' : Disk} (h : disk.KeepsDirectories disk') :
    b.Keeps disk b disk' := ⟨rfl, rfl, h⟩

theorem keeps_createDirectory (directories : Fault) (path : Bytes) :
    b.Keeps disk b (b.createDirectory directories path disk).1 := by
  unfold createDirectory
  split
  · exact keeps_same (.refl disk)
  · exact keeps_same (disk.keeps_createDirectories _ _ _)

theorem keeps_createFile (faults : FileFaults) (path : Bytes) (fileId : UInt32) :
    b.Keeps disk (b.createFile faults path fileId disk).1
      (b.createFile faults path fileId disk).2.1 := by
  unfold createFile
  split
  · exact keeps_same (.refl disk)
  rename_i staging _
  have hmade := disk.keeps_createDirectories faults.directories staging (stagedParent path)
  split
  · rename_i heq
    rw [heq] at hmade
    exact keeps_same hmade
  · rename_i heq
    rw [heq] at hmade
    split
    · rename_i hopen _
      have hopened := hmade.trans (FileTree.keeps_openTruncated hopen)
      refine ⟨rfl, rfl, ?_⟩
      dsimp only
      split
      · exact hopened.trans (FileTree.keeps_writeAt _ _ _ _)
      · exact hopened
    · exact keeps_same hmade

theorem keeps_createSymlink (faults : SymlinkFaults) (path target : Bytes) :
    b.Keeps disk b (b.createSymlink faults path target disk).1 := by
  unfold createSymlink
  split
  · exact keeps_same (.refl disk)
  rename_i staging _
  have hmade := disk.keeps_createDirectories faults.directories staging (stagedParent path)
  split
  · rename_i heq
    rw [heq] at hmade
    exact keeps_same hmade
  rename_i heq
  rw [heq] at hmade
  split
  · exact keeps_same hmade
  · exact keeps_same hmade
  · dsimp only
    split
    · exact keeps_same hmade
    · rename_i hlink
      refine keeps_same (hmade.trans ?_)
      simp only [attempt] at hlink
      split at hlink
      · cases hlink
      · split_ifs at hlink
        exact FileTree.keeps_createSymlink hlink

theorem keeps_write (count : Nat) (fault : Option Bytes) (data : Bytes) (fileId : UInt32) :
    b.Keeps disk (b.write count fault data fileId disk).1
      (b.write count fault data fileId disk).2.1 := by
  unfold write
  split
  · exact keeps_same (.refl disk)
  · split_ifs
    · exact keeps_same (.refl disk)
    · dsimp only
      split
      · exact ⟨rfl, rfl, FileTree.keeps_writeAt _ _ _ _⟩
      · exact ⟨rfl, rfl, FileTree.keeps_writeAt _ _ _ _⟩

theorem keeps_closeFile (fault : Option Nat) (fileId : UInt32) :
    b.Keeps disk (b.closeFile fault fileId disk).1 (b.closeFile fault fileId disk).2.1 := by
  unfold closeFile
  split
  · exact keeps_same (.refl disk)
  · dsimp only
    split_ifs
    · exact ⟨rfl, rfl, FileTree.keeps_writeAt _ _ _ _⟩
    · exact ⟨rfl, rfl, FileTree.keeps_writeAt _ _ _ _⟩

theorem keeps_closeAll (faults : CloseFaults) :
    b.Keeps disk (b.closeAll faults disk).1 (b.closeAll faults disk).2.1 :=
  ⟨rfl, rfl, closeAll_keeps (fun _ _ _ _ h => h.trans (FileTree.keeps_writeAt _ _ _ _))
    (.refl disk)⟩

theorem keeps_commitDirectory (root : Location Bytes) (path : List Bytes)
    (faults : EntryFaults) : disk.KeepsDirectories (commitDirectory root path faults disk).1 := by
  unfold commitDirectory
  split
  · exact .refl disk
  · exact .refl disk
  · exact .refl disk
  · exact disk.keeps_createDirectories _ _ _

theorem keeps_commitLeaf (staging root : Location Bytes) (path : List Bytes)
    (faults : EntryFaults) :
    disk.KeepsDirectories (commitLeaf staging root path faults disk).1 := by
  have hmade := disk.keeps_createDirectories faults.directories root
    (FileTree.names path.dropLast)
  unfold commitLeaf
  split
  · rename_i heq
    rwa [heq] at hmade
  rename_i heq
  rw [heq] at hmade
  split
  · exact hmade
  · exact hmade
  · split
    · exact hmade
    · rename_i hrename
      simp only [attempt] at hrename
      split at hrename
      · cases hrename
      · exact hmade.trans (FileTree.keeps_rename hrename)

theorem keeps_commitEntry (staging root : Location Bytes) (path : List Bytes)
    (faults : EntryFaults) :
    disk.KeepsDirectories (commitEntry staging root path faults disk).1 := by
  unfold commitEntry
  split
  · exact .refl disk
  split
  · exact .refl disk
  · exact .refl disk
  · exact keeps_commitDirectory disk root path faults
  · exact keeps_commitLeaf disk staging root path faults

theorem keeps_commitEntries (staging root : Location Bytes)
    (entries : List (List Bytes × EntryFaults)) :
    disk.KeepsDirectories (commitEntries staging root entries disk).1 := by
  induction entries generalizing disk with
  | nil => exact .refl disk
  | cons entry rest ih =>
      have hentry := keeps_commitEntry disk staging root entry.1 entry.2
      rw [commitEntries]
      split
      · rename_i heq
        rwa [heq] at hentry
      · rename_i heq
        rw [heq] at hentry
        exact hentry.trans (ih _)

end Keeps
end FileBuilder
end FileHopZ
