import MediaBackup.Files.Tree

/-
  The files of a machine, as far as every machine has them: where databases are opened that are not of this
  program.
-/

namespace MediaBackup.Rehearsal

open Files

/-- The directories where files can be made. -/
def openDirectories : List String :=
  ["bin", "boot", "dev", "etc", "home", "lib", "media", "mnt", "opt", "root", "run", "sbin", "srv", "tmp", "usr", "usr/bin",
   "usr/lib", "usr/share", "var", "var/lib", "var/log", "var/tmp"]

/-- The directories that the system fills by itself. -/
def closedDirectories : List String := ["proc", "sys"]

/-- The files of a machine. -/
def machine : Node :=
  let files := ["etc/passwd", "etc/hosts"].map fun p => (p, Node.file "text".toUTF8.toList)
  let devices := ["dev/null", "dev/zero"].map fun p => (p, Node.other)
  let top := openDirectories.foldl (fun top p => top.putDir (.ofText p)) Node.empty
  let top := (files ++ devices).foldl (fun top (p, n) => top.put (.ofText p) n) top
  closedDirectories.foldl (fun top p => top.put (.ofText p) (.dir false [("version".toUTF8.toList, .file [])])) top

end MediaBackup.Rehearsal
