import RecordingDelivery.Files.Calls
import RecordingDelivery.Spool.Marker

/-!
What happens to a file once its endpoint has acknowledged it: it is removed, or it gets the mark. A
fault leaves the tree as it was. That the directory is synced afterwards shows in no tree, and is left
out.
-/
namespace RecordingDelivery

inductive FinalizeError
  | delete (path : Path) (fault : Fault)
  | rename (source target : Path) (fault : Fault)
  | noFileName (path : Path)
  deriving DecidableEq, Repr

def FinalizeError.message : FinalizeError → String
  | .delete path fault => "failed to delete " ++ path.display ++ ": " ++ fault.message
  | .rename source target fault =>
    "failed to rename " ++ source.display ++ " to " ++ target.display ++ ": " ++ fault.message
  | .noFileName path => "cannot mark " ++ path.display ++ " as uploaded: no file name"

inductive Finalized
  | deleted | renamed (target : Path)
  deriving DecidableEq, Repr

namespace Tree

def finalize (t : Tree) (p : Path) (delete : Bool) : Except FinalizeError (Finalized × Tree) :=
  if delete then
    match t.unlink p with
    | .ok t => .ok (.deleted, t)
    | .error fault => .error (.delete p fault)
  else
    match Marker.uploadedPath p with
    | none => .error (.noFileName p)
    | some target =>
      match t.rename p target with
      | .ok t => .ok (.renamed target, t)
      | .error fault => .error (.rename p target fault)

/-- The tree after finalization, whether or not it succeeded. -/
def finalized (t : Tree) (p : Path) (delete : Bool) : Tree :=
  match t.finalize p delete with
  | .ok (_, t) => t
  | .error _ => t

end Tree
end RecordingDelivery
