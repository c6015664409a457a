import Certified.Config.Encoding
import Certified.FileSystem

/-!
Saving a configuration in a file.
-/

namespace Certified.Config

/-- Saves a configuration under a name. The file is opened when there is a document to write into it, and not
before. -/
def save (c : Config) (name : String) (fs : FileSystem) : Except ConfigError Unit × FileSystem :=
  match c.toText with
  | .error e => (.error e, fs)
  | .ok text =>
    match fs.writeLocation name with
    | .error e => (.error (.file e), fs)
    | .ok location => (.ok (), fs.write location (Bytes.ofText text))

end Certified.Config
