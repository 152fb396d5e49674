import RecordingDelivery.Files.Path

/-!
The mark that a delivered recording carries in its name: `_uploaded` before the extension, or at
the end of a name that is not text.
-/
namespace RecordingDelivery.Marker

def mark : Bytes := Bytes.ofText "_uploaded"

def splitExtension (name : Bytes) : Bytes × Bytes :=
  let back := name.reverse
  match back.dropWhile (· != Path.dot) with
  | [] => (name, [])
  | _ :: stem => (stem.reverse, Path.dot :: (back.takeWhile (· != Path.dot)).reverse)

def uploadedName (name : Bytes) : Bytes :=
  if Utf8.isWellFormed name then
    let (stem, extension) := splitExtension name
    stem ++ mark ++ extension
  else name ++ mark

def isUploadedName (name : Bytes) : Bool :=
  if Utf8.isWellFormed name then (splitExtension name).1.endsWith mark
  else (Bytes.ofText (Utf8.lossy name)).endsWith mark

/-- Where a delivered file goes; a path without a file name has no such place. -/
def uploadedPath (p : Path) : Option Path :=
  p.fileName.map fun name => p.withFileName (uploadedName name)

end RecordingDelivery.Marker
