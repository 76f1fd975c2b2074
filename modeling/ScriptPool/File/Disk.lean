import ScriptPool.File.Path

namespace ScriptPool

/-- What a path can lead to. -/
inductive DiskEntry where
  | folder
  | file (contents : ByteArray)

/-- Folders and files. The top of the disk is always a folder. -/
structure Disk where
  entries : List (List String × DiskEntry)

namespace Disk

def empty : Disk := ⟨[]⟩

def find? (d : Disk) (place : List String) : Option DiskEntry :=
  if place.isEmpty then some .folder else d.entries.lookup place

def isFolder (d : Disk) (place : List String) : Bool :=
  (d.find? place).any fun entry => entry matches .folder

/-- Whether a folder can have an entry of this name: it has at most 255 bytes and no null character
among them. -/
def isUsable (name : String) : Bool :=
  name.utf8ByteSize ≤ 255 && name.toList.all (· ≠ '\x00')

/-- Walks along names; all but the last must be folders. -/
def walk? (d : Disk) (place : List String) : List String → Option (List String)
  | [] => some place
  | name :: rest =>
    if !d.isFolder place || !isUsable name then none
    else if name = "" ∨ name = "." then walk? d place rest
    else if name = ".." then walk? d place.dropLast rest
    else walk? d (place ++ [name]) rest

/-- The place that a path leads to. A path with nothing behind its last slash leads to a folder
only. -/
def locate? (d : Disk) (path : String) : Option (List String) :=
  let names := (Path.names path.toList).map String.ofList
  match d.walk? [] names with
  | some place =>
    if (names.getLast?.any fun name => name = "" || name = "." || name = "..") && !d.isFolder place
    then none else some place
  | none => none

def put (d : Disk) (place : List String) (entry : DiskEntry) : Disk :=
  ⟨(place, entry) :: d.entries.filter fun e => e.1 != place⟩

/-- The contents of a file. -/
def readBytes? (d : Disk) (path : String) : Option ByteArray :=
  match (d.locate? path).bind d.find? with
  | some (.file contents) => some contents
  | _ => none

/-- The contents of a file as text, if they are one. -/
def read? (d : Disk) (path : String) : Option String :=
  (d.readBytes? path).bind String.fromUTF8?

/-- Writes a file, whether or not there is one already. -/
def writeBytes? (d : Disk) (path : String) (contents : ByteArray) : Option Disk :=
  match d.locate? path with
  | some place =>
    if d.isFolder place || !d.isFolder place.dropLast then none
    else some (d.put place (.file contents))
  | none => none

def write? (d : Disk) (path text : String) : Option Disk :=
  d.writeBytes? path text.toUTF8

/-- Adds a text at the end of a file, which comes into being if it does not exist. -/
def append? (d : Disk) (path text : String) : Option Disk :=
  d.writeBytes? path ((d.readBytes? path).getD .empty ++ text.toUTF8)

/-- Makes the folders along some names. -/
def makeFoldersAt (d : Disk) (place : List String) : List String → Disk
  | [] => d
  | name :: rest =>
    if name = "" ∨ name = "." then makeFoldersAt d place rest
    else if name = ".." then makeFoldersAt d place.dropLast rest
    else
      let place := place ++ [name]
      makeFoldersAt (if d.isFolder place then d else d.put place .folder) place rest

/-- Makes a folder and all folders that it lies in. -/
def makeFolders (d : Disk) (path : String) : Disk :=
  d.makeFoldersAt [] ((Path.names path.toList).map String.ofList)

end Disk

end ScriptPool
