import SchemaGate.Disk.Basic

/-!
# Storage

What the program asks of a disk, so that one text of it runs on the disk of the system and on a
`Disk`.
-/

namespace SchemaGate

/-- A monad with a disk, whose operations answer or give the disk's reason. -/
class Storage (m : Type → Type) where
  /-- Whether there is anything at a path. -/
  isPresent : String → m Bool
  /-- Whether there is a directory at a path. -/
  isDirectory : String → m Bool
  /-- Whether there is a file at a path. -/
  isFile : String → m Bool
  /-- The text of a file. -/
  read : String → m (Except DiskError String)
  /-- The names in a directory, in any order. -/
  names : String → m (Except DiskError (List String))
  /-- Writes a text to a file, in place of what it held. -/
  write : String → String → m (Except DiskError Unit)
  /-- Creates a directory with those on the way to it. -/
  createDirs : String → m (Except DiskError Unit)

instance : Storage (StateM Disk) where
  isPresent path := fun d => (d.isPresent path, d)
  isDirectory path := fun d => (d.isDirectory path, d)
  isFile path := fun d => (d.isFile path, d)
  read path := fun d => (d.read path, d)
  names path := fun d => (d.names path, d)
  write path text := fun d => match d.write path text with
    | .ok next => (.ok (), next)
    | .error e => (.error e, d)
  createDirs path := fun d => d.createDirs path

end SchemaGate
