import Choreo.Plan.Check
import Choreo.Plan.OfToml

/-!
# Plan files

A plan is read from the bytes of a file, which have to be UTF-8. What can go wrong on the way is
that there are no bytes, that they are no text, or that the text is not a plan.
-/

namespace Choreo

/-- Why the text of a file cannot be had. -/
inductive FileFault where
  | notFound
  | notDirectory
  | isDirectory
  | nameTooLong
  | nullInName
  | notText
  deriving DecidableEq

def FileFault.word : FileFault → String
  | .notFound => "No such file or directory (os error 2)"
  | .notDirectory => "Not a directory (os error 20)"
  | .isDirectory => "Is a directory (os error 21)"
  | .nameTooLong => "File name too long (os error 36)"
  | .nullInName => "file name contained an unexpected NUL byte"
  | .notText => "stream did not contain valid UTF-8"

/-- Why there is no plan. -/
inductive LoadFailure where
  | file (fault : FileFault)
  | malformed
  deriving DecidableEq

def LoadFailure.message : LoadFailure → String
  | .file fault => "IO error: " ++ fault.word
  | .malformed => "TOML parsing error"

namespace Draft

def ofText (text : String) : Except LoadFailure Draft :=
  match ofToml? text with
  | some draft => .ok draft
  | none => .error .malformed

def ofBytes (bytes : ByteArray) : Except LoadFailure Draft :=
  match String.fromUTF8? bytes with
  | some text => ofText text
  | none => .error (.file .notText)

def ofFile : Except FileFault ByteArray → Except LoadFailure Draft
  | .ok bytes => ofBytes bytes
  | .error fault => .error (.file fault)

end Draft

end Choreo
