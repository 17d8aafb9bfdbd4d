import DirWatch.Notice

/-!
# Notices in lines

A notice is written on a line as its type, its path and for a move its destination, with tabs between them. A path that
ends in a slash is that of a directory. A line without a path is no notice.
-/

namespace DirWatch

/-- The fields of a line, between tabs. -/
def lineFields : Text → List Text
  | [] => [[]]
  | c :: rest =>
    if c = .char '\t' then [] :: lineFields rest
    else
      match lineFields rest with
      | [] => [[c]]
      | f :: fs => (c :: f) :: fs

/-- The notice that a line writes. -/
def Notice.ofLine? (line : Text) : Option Notice :=
  match lineFields (line.filter fun c => c ≠ .char '\n' && c ≠ .char '\r') with
  | type :: source :: rest =>
    if source = [] then none
    else
      some {
        type := .ofName type
        source
        destination := rest.headD []
        isDirectory := source.getLast? == some slash }
  | _ => none

end DirWatch
