/-
  From one folder to another.

  `changes before after` lists what has to be done, in order, so that `before` becomes `after`: first files go, then folders
  that are gone, the inner ones first, and then folders are made and files are written.
-/
import SeedCorpus.Folder.Tree

namespace SeedCorpus.Folder

/-- A step on the way from a folder to another. -/
inductive Change where
  /-- A file goes. -/
  | remove (path : String)
  /-- A folder goes. -/
  | removeFolder (path : String)
  /-- A folder is made. -/
  | makeFolder (path : String)
  /-- A file is written. -/
  | write (path : String) (content : ByteArray)

/-- The entry of a path in a folder. -/
def entryIn (d : Folder) (path : String) : Option Entry := (d.entryAt (Path.names path)).toOption

/-- The step by which a file that is gone goes. -/
def removal? (after : Folder) (path : String) : Entry → Option Change
  | .folder _ => none
  | .file _ => if (entryIn after path).any Entry.isFile then none else some (.remove path)

/-- The step by which a folder that is gone goes. -/
def folderRemoval? (after : Folder) (path : String) : Entry → Option Change
  | .folder _ => if (entryIn after path).any (!·.isFile) then none else some (.removeFolder path)
  | .file _ => none

/-- The step that an entry of the second folder asks for. -/
def addition? (before : Folder) (path : String) : Entry → Option Change
  | .folder _ => if (entryIn before path).any (!·.isFile) then none else some (.makeFolder path)
  | .file content =>
    match entryIn before path with
    | some (.file old) => if old = content then none else some (.write path content)
    | _ => some (.write path content)

/-- The steps from a folder to another. -/
def changes (before after : Folder) : List Change :=
  (listing before).filterMap (fun (path, entry) => removal? after path entry)
    ++ (listing before).reverse.filterMap (fun (path, entry) => folderRemoval? after path entry)
    ++ (listing after).filterMap (fun (path, entry) => addition? before path entry)

end SeedCorpus.Folder
