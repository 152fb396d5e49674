import RecordingDelivery.Delivery.Service

/-!
A transport that follows a script: how long each call takes, what others do to the files and the
outbox meanwhile, and how it ends. Behind the end of the script every call succeeds at once.
-/
namespace RecordingDelivery.Rehearsal

inductive FileChange
  | write (p : Path) (contents : Bytes)
  | makeDirectory (p : Path)
  | link (p target : Path)
  | pipe (p : Path)
  | remove (p : Path)
  | removeAll (p : Path)
  deriving Repr

def FileChange.apply (t : Tree) : FileChange → Tree × Option Fault
  | .write p contents => t.write p contents
  | .makeDirectory p => t.createDirectories p
  | .link p target =>
    kept <|
      if p.bytes.contains 0 then .error .zeroByte
      else do
        Tree.checkText target
        t.create p (.link target)
  | .pipe p => kept (t.create p .pipe)
  | .remove p => kept (t.unlink p)
  | .removeAll p => t.removeAll p
where
  kept : Except Fault Tree → Tree × Option Fault
    | .ok t => (t, none)
    | .error fault => (t, some fault)

inductive Interference
  | enqueue (p : Path) (d : Destination)
  | files (c : FileChange)
  deriving Repr

def Interference.apply (s : Site) : Interference → Site
  | .enqueue p d => (s.enqueue p d).2
  | .files c => { s with tree := (c.apply s.tree).1 }

inductive Ending
  | success
  | rejected (status : Nat)
  | unreadable (fault : Fault)
  deriving DecidableEq, Repr

def Ending.result (t : Task) : Ending → CallResult
  | .success => .ok ()
  | .rejected status => .error (.rejected status)
  | .unreadable fault => .error (.unreadable t.path fault)

structure ScriptedCall where
  delay : Nat := 0
  meanwhile : List Interference := []
  ending : Ending := .success
  deriving Repr

def ScriptedCall.run (c : ScriptedCall) (t : Task) (s : Site) : CallResult × Site :=
  (c.ending.result t, c.meanwhile.foldl Interference.apply s)

end RecordingDelivery.Rehearsal
