/-
  The system that the commands find when they run: the files that are there in any case, and the stand-in programs.

  Around a folder that programs work in there are the files of the programs themselves, the devices, and a few folders that
  every system has.  `FileTree.around` puts a folder among them, at a path that starts from the outermost folder.  This is
  the outermost layer: only here a system is chosen, and no theorem looks at it.
-/
import SeedCorpus.StandIn.Programs

namespace SeedCorpus

namespace StandIn

/-- The folder with the files of all programs. -/
def programFolder : Entry := .folder (Tool.programNames.map fun name => (name, .file (Tool.programFile name)))

/-- The folder with the devices. -/
def deviceFolder : Entry := .folder (Device.byName.map fun device => (device.1, .file .empty))

/-- The file that lists the users. -/
def userFile : Entry := .file "root:x:0:0:root:/root:/bin/bash\n".toUTF8

/-- The outermost folder as it always is. -/
def surroundings : Folder :=
  [("bin", programFolder), ("dev", deviceFolder), ("etc", .folder [("passwd", userFile)]), ("home", .folder []),
    ("lib", .folder []), ("proc", .folder []), ("root", .folder []), ("tmp", .folder []),
    ("usr", .folder [("bin", programFolder), ("lib", .folder []), ("local", .folder [("bin", .folder [])])]),
    ("var", .folder [])]

end StandIn

/-- A folder with another one at the end of names, all of which stand for folders. -/
def Folder.mount (d sub : Folder) : List String → Folder
  | [] => sub
  | name :: rest =>
    match d.get? name with
    | some (.folder below) => d.put name (.folder (mount below sub rest))
    | _ => d.put name (.folder (mount [] sub rest))

/-- The files around a folder, with paths that start in it. -/
def FileTree.around (here : List String) (d : Folder) : FileTree :=
  { root := Folder.mount StandIn.surroundings d here, here }

/-- The folder that paths start from, if it is still there. -/
def FileTree.inside (t : FileTree) : Folder := (t.root.folderAt t.here).toOption.getD []

end SeedCorpus
